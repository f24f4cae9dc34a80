import MetaframerKernel.Async.Program
import MetaframerKernel.Js.Values

/-!
# Units of work

Three functions in one order: begin, then the body, then commit, or rollback where the body failed;
and the flag that lets one instance have one such run at a time.

An instance may be called at any time, also from inside a function that one of its runs has called,
so a nested call is a call like any other.

## Main definitions

* `runScope`: the calls of one run, in their order;
* `Instance`, `Instance.run`, `Step`: an instance of `UnitOfWork`, a call of its `run`, and how its
  runs go on;
* `Protocol`: what a run may have called, and what it settles to.

## Main results

* `run_protocol`: whatever is called and however it settles, one run at a time keeps the protocol,
  and a run is refused exactly while another one is in flight.
-/

namespace MetaframerKernel.UnitOfWork

open Js Async Program

section Scope

variable {I : Interface} {S α : Type}

/-- `run` past its two checks: whatever `begin` resolves to is the scope. -/
def runScope (begin : Program I S) (commit rollback : S → Program I Unit)
    (body : S → Program I α) : Program I α := do
  let scope ← begin
  let value ← tryCatch (body scope) fun failure => do
    let _ ← (rollback scope).regardless
    throw failure
  let _ ← commit scope
  return value

end Scope

/-! ## What a run calls -/

/-- The functions of the port, and the body of the run. -/
inductive PortCall (S : Type) where
  | begin
  | body (scope : S)
  | commit (scope : S)
  | rollback (scope : S)

/-- What a call is fulfilled with, as far as it is looked at. -/
@[reducible]
def PortCall.Answer {S : Type} (V : Type) : PortCall S → Type
  | begin => S
  | body _ => V
  | commit _ => Unit
  | rollback _ => Unit

/-- The calls of a run over scopes `S`, values `V` and failures `E`. -/
abbrev port (S V E : Type) : Interface := ⟨PortCall S, PortCall.Answer V, E⟩

section Protocol

variable {S V E : Type}

/-- A run past its two checks. -/
def admittedRun : Program (port S V E) V :=
  runScope (Program.ask (I := port S V E) .begin)
    (fun scope => Program.ask (I := port S V E) (.commit scope))
    (fun scope => Program.ask (I := port S V E) (.rollback scope))
    fun scope => Program.ask (I := port S V E) (.body scope)

/-- What a run has called, what the calls that are over settled to, and the outcome of the run once
it has one. -/
inductive Protocol : List (PortCall S) → History (port S V E) → Option (Except E V) → Prop
  | beginning : Protocol [.begin] [] none
  | notBegun (e : E) : Protocol [.begin] [⟨.begin, .error e⟩] (some (.error e))
  | inBody (s : S) : Protocol [.begin, .body s] [⟨.begin, .ok s⟩] none
  | committing (s : S) (v : V) :
      Protocol [.begin, .body s, .commit s] [⟨.begin, .ok s⟩, ⟨.body s, .ok v⟩] none
  | committed (s : S) (v : V) :
      Protocol [.begin, .body s, .commit s]
        [⟨.begin, .ok s⟩, ⟨.body s, .ok v⟩, ⟨.commit s, .ok ()⟩] (some (.ok v))
  | notCommitted (s : S) (v : V) (e : E) :
      Protocol [.begin, .body s, .commit s]
        [⟨.begin, .ok s⟩, ⟨.body s, .ok v⟩, ⟨.commit s, .error e⟩] (some (.error e))
  | rollingBack (s : S) (e : E) :
      Protocol [.begin, .body s, .rollback s] [⟨.begin, .ok s⟩, ⟨.body s, .error e⟩] none
  | rolledBack (s : S) (e : E) (r : Except E Unit) :
      Protocol [.begin, .body s, .rollback s]
        [⟨.begin, .ok s⟩, ⟨.body s, .error e⟩, ⟨.rollback s, r⟩] (some (.error e))

/-- The calls of a run keep the protocol, and so does its outcome. -/
theorem safe_admittedRun :
    Safe (fun past c => Protocol (past.map Sigma.fst ++ [c]) past none)
      (fun past o => Protocol (past.map Sigma.fst) past (some o)) [] (admittedRun (S := S)
        (V := V) (E := E)) := by
  refine ⟨.beginning, fun begun => ?_⟩
  cases begun with
  | error e => exact .notBegun e
  | ok s =>
    refine ⟨.inBody s, fun done => ?_⟩
    cases done with
    | error e => exact ⟨.rollingBack s e, fun r => .rolledBack s e r⟩
    | ok v =>
      refine ⟨.committing s v, fun closed => ?_⟩
      cases closed with
      | error e => exact .notCommitted s v e
      | ok _ => exact .committed s v

/-- A run that resolves has committed what its body produced. -/
theorem Protocol.resolved {calls : List (PortCall S)} {past : History (port S V E)} {v : V}
    (h : Protocol calls past (some (.ok v))) :
    ∃ s, past = [⟨.begin, .ok s⟩, ⟨.body s, .ok v⟩, ⟨.commit s, .ok ()⟩] := by
  cases h with
  | committed s => exact ⟨s, rfl⟩

/-- A run whose body failed is rolled back and settles to that failure. -/
theorem Protocol.failed {calls : List (PortCall S)} {past : History (port S V E)}
    {o : Option (Except E V)} (h : Protocol calls past o) {s : S} {e : E}
    (hfailed : (⟨.body s, .error e⟩ : Event (port S V E)) ∈ past) :
    calls = [.begin, .body s, .rollback s] ∧ (o = none ∨ o = some (.error e)) := by
  cases h with
  | rollingBack s' e' =>
    obtain ⟨rfl, rfl⟩ : s = s' ∧ e = e' := by simpa using hfailed
    exact ⟨rfl, .inl rfl⟩
  | rolledBack s' e' r =>
    obtain ⟨rfl, rfl⟩ : s = s' ∧ e = e' := by simpa using hfailed
    exact ⟨rfl, .inr rfl⟩
  | _ => simp at hfailed

end Protocol

/-! ## One instance -/

/-- An admitted run: what its calls settled to, what it has left to do, and whether the call it has
made last has returned, so that the run awaits what was returned. -/
structure Run (S V E : Type) where
  past : History (port S V E)
  left : Program (port S V E) V
  suspended : Bool

/-- What has become of a call of `run`. -/
inductive Started (S V E : Type) where
  | refused (reason : NativeError)
  | admitted (run : Run S V E)

/-- An instance of `UnitOfWork` with its flag, what has become of the calls of its `run`, and what
these have called, in order. -/
structure Instance (ι S V E : Type) where
  inFlight : Bool
  runs : ι → Option (Started S V E)
  calls : List (ι × PortCall S)

namespace Instance

variable {ι S V E : Type} [DecidableEq ι]

/-- An instance whose `run` has not been called. -/
def initial : Instance ι S V E := ⟨false, fun _ => none, []⟩

/-- A refusal reaches the caller as a rejection, and is all that happens. -/
def refuse (u : Instance ι S V E) (i : ι) (message : String) : Instance ι S V E :=
  { u with runs := Function.update u.runs i (some (.refused (.typeError (lit message)))) }

/-- A run goes on until it has made its next call, or settles and clears the flag. -/
def proceed (u : Instance ι S V E) (i : ι) (past : History (port S V E)) :
    Program (port S V E) V → Instance ι S V E
  -- `finally`: the flag falls before the caller sees how the run ended
  | settled o =>
      { u with
        inFlight := false
        runs := Function.update u.runs i (some (.admitted ⟨past, settled o, false⟩)) }
  | await c next =>
      { u with
        runs := Function.update u.runs i (some (.admitted ⟨past, await c next, false⟩))
        calls := u.calls ++ [(i, c)] }

/-- `run`, up to where it awaits the first time. -/
def run (u : Instance ι S V E) (i : ι) (bodyIsFunction : Bool) : Instance ι S V E :=
  if !bodyIsFunction then u.refuse i "UnitOfWork.run needs a function body"
  else if u.inFlight then
    u.refuse i "UnitOfWork.run is already in flight on this unit of work"
  else { u with inFlight := true }.proceed i [] admittedRun

/-- The call a run has made returns something to await. -/
def suspend (u : Instance ι S V E) (i : ι) (run : Run S V E) : Instance ι S V E :=
  { u with runs := Function.update u.runs i (some (.admitted { run with suspended := true })) }

/-- What can happen next: a call of `run`; or the call that an admitted run has made throws or
returns, or what it returned settles. -/
inductive Step (u : Instance ι S V E) : Instance ι S V E → Prop
  | run {i : ι} (bodyIsFunction : Bool) : u.runs i = none → Step u (u.run i bodyIsFunction)
  | threw {i : ι} {past : History (port S V E)} {c : PortCall S}
      {next : (port S V E).Settled c → Program (port S V E) V} (e : E) :
      u.runs i = some (.admitted ⟨past, await c next, false⟩) →
      Step u (u.proceed i (past ++ [⟨c, .error e⟩]) (next (.error e)))
  | returned {i : ι} {past : History (port S V E)} {c : PortCall S}
      {next : (port S V E).Settled c → Program (port S V E) V} :
      u.runs i = some (.admitted ⟨past, await c next, false⟩) →
      Step u (u.suspend i ⟨past, await c next, false⟩)
  | settled {i : ι} {past : History (port S V E)} {c : PortCall S}
      {next : (port S V E).Settled c → Program (port S V E) V} (r : (port S V E).Settled c) :
      u.runs i = some (.admitted ⟨past, await c next, true⟩) →
      Step u (u.proceed i (past ++ [⟨c, r⟩]) (next r))

/-- What a schedule can lead to. -/
inductive Reachable : Instance ι S V E → Prop
  | initial : Reachable initial
  | step {u u' : Instance ι S V E} : Reachable u → u.Step u' → Reachable u'

/-- What a run has called. -/
def callsOf (u : Instance ι S V E) (i : ι) : List (PortCall S) :=
  (u.calls.filter fun call => call.1 = i).map Prod.snd

/-- A run has been admitted and has not settled. -/
def IsOpen (u : Instance ι S V E) (i : ι) : Prop :=
  ∃ run, u.runs i = some (.admitted run) ∧ run.left.outcome? = none

/-! ### What a step changes -/

section Effects

variable (u : Instance ι S V E) {i j : ι} (message : String) (past : History (port S V E))
  (p : Program (port S V E) V)

/-- A refused run leaves the instance as busy as it was. -/
@[simp]
theorem refuse_inFlight : (u.refuse i message).inFlight = u.inFlight := rfl

/-- A refused run makes no call. -/
@[simp]
theorem refuse_calls : (u.refuse i message).calls = u.calls := rfl

/-- A refused run ends with the message it is refused with. -/
@[simp]
theorem refuse_runs_self :
    (u.refuse i message).runs i = some (.refused (.typeError (lit message))) :=
  Function.update_self ..

/-- A refusal leaves the other runs as they were. -/
@[simp]
theorem refuse_runs_of_ne (h : j ≠ i) : (u.refuse i message).runs j = u.runs j :=
  Function.update_of_ne h ..

/-- A run that proceeds has the history and the program it proceeds with. -/
@[simp]
theorem proceed_runs_self :
    (u.proceed i past p).runs i = some (.admitted ⟨past, p, false⟩) := by
  cases p <;> exact Function.update_self ..

/-- A run that proceeds leaves the others as they were. -/
@[simp]
theorem proceed_runs_of_ne (h : j ≠ i) : (u.proceed i past p).runs j = u.runs j := by
  cases p <;> exact Function.update_of_ne h ..

/-- A suspended run keeps the instance busy. -/
@[simp]
theorem suspend_inFlight (run : Run S V E) : (u.suspend i run).inFlight = u.inFlight := rfl

/-- A suspended run is marked as one. -/
@[simp]
theorem suspend_runs_self (run : Run S V E) :
    (u.suspend i run).runs i = some (.admitted { run with suspended := true }) :=
  Function.update_self ..

/-- A suspension leaves the other runs as they were. -/
@[simp]
theorem suspend_runs_of_ne (run : Run S V E) (h : j ≠ i) :
    (u.suspend i run).runs j = u.runs j :=
  Function.update_of_ne h ..

/-- A run that proceeds makes the call it waits for. -/
theorem proceed_calls :
    (u.proceed i past p).calls = u.calls ++ p.pending.map fun c => (i, c) := by
  cases p with
  | settled o => exact (List.append_nil _).symm
  | await c next => rfl

/-- That call is one of the run's. -/
theorem callsOf_proceed_self : (u.proceed i past p).callsOf i = u.callsOf i ++ p.pending := by
  rw [callsOf, proceed_calls, List.filter_append, List.map_append]
  cases p with
  | settled o => simp [callsOf, pending]
  | await c next => simp [callsOf, pending]

/-- The other runs make no call. -/
theorem callsOf_proceed_of_ne (h : j ≠ i) : (u.proceed i past p).callsOf j = u.callsOf j := by
  rw [callsOf, proceed_calls, List.filter_append, List.map_append]
  cases p with
  | settled o => simp [callsOf, pending]
  | await c next => simp [callsOf, pending, h.symm]

/-- A run that proceeds is open until it has an outcome. -/
theorem isOpen_proceed_self : (u.proceed i past p).IsOpen i ↔ p.outcome? = none := by
  simp [IsOpen]

/-- The other runs are as open as they were. -/
theorem isOpen_proceed_of_ne (h : j ≠ i) : (u.proceed i past p).IsOpen j ↔ u.IsOpen j := by
  simp [IsOpen, h]

/-- A refusal opens no run. -/
theorem isOpen_of_refuse (h : (u.refuse i message).IsOpen j) : u.IsOpen j := by
  by_cases hj : j = i
  · subst hj
    simp [IsOpen] at h
  · simpa [IsOpen, hj] using h

/-- A run is refused when its body is no function or another run is in flight. -/
theorem run_eq_refuse (bodyIsFunction : Bool)
    (h : bodyIsFunction = false ∨ u.inFlight = true) :
    ∃ message, u.run i bodyIsFunction = u.refuse i message := by
  unfold run
  split_ifs with hfunction hflight
  · exact ⟨_, rfl⟩
  · exact ⟨_, rfl⟩
  · simp_all

/-- Otherwise it proceeds with the protocol, and the instance is busy. -/
theorem run_eq_proceed (h : u.inFlight = false) :
    u.run i true = { u with inFlight := true }.proceed i [] admittedRun := by
  simp [run, h]

/-- The instance is free again once the run has an outcome. -/
theorem proceed_inFlight :
    (u.proceed i past p).inFlight = (p.outcome?.isNone && u.inFlight) := by
  cases p with
  | settled o => rfl
  | await c next => simp [proceed, outcome?]

end Effects

/-! ### The invariant -/

/-- What a run has called is what its program has come to. -/
def Matches (calls : List (PortCall S)) : Option (Started S V E) → Prop
  | some (.admitted run) =>
      Steps admittedRun run.past run.left ∧ calls = run.past.map Sigma.fst ++ run.left.pending
  | _ => calls = []

/-- One run is in flight at most, the flag says whether one is, and every run follows its
program. -/
structure Inv (u : Instance ι S V E) : Prop where
  flag : u.inFlight = true ↔ ∃ i, u.IsOpen i
  exclusive : ∀ i j, u.IsOpen i → u.IsOpen j → i = j
  runs : ∀ i, Matches (u.callsOf i) (u.runs i)

/-- The invariant holds of a new instance. -/
theorem inv_initial : Inv (initial : Instance ι S V E) where
  flag := ⟨nofun, fun ⟨_, _, h, _⟩ => nomatch h⟩
  exclusive := fun _ _ ⟨_, h, _⟩ => nomatch h
  runs _ := rfl

variable {u u' : Instance ι S V E} {i : ι}

/-- The one run in flight may go on. -/
theorem Inv.proceed {past : History (port S V E)} {p : Program (port S V E) V}
    (hflag : u.inFlight = true) (hothers : ∀ j, u.IsOpen j → j = i)
    (hruns : ∀ j, j ≠ i → Matches (u.callsOf j) (u.runs j))
    (hcalls : u.callsOf i = past.map Sigma.fst) (hsteps : Steps admittedRun past p) :
    Inv (u.proceed i past p) := by
  have hopen (j : ι) : (u.proceed i past p).IsOpen j ↔ j = i ∧ p.outcome? = none := by
    by_cases hj : j = i
    · subst hj
      simp [isOpen_proceed_self]
    · rw [isOpen_proceed_of_ne _ _ _ hj]
      exact ⟨fun h => absurd (hothers j h) hj, fun h => absurd h.1 hj⟩
  -- the flag, that no two runs are open, and the calls of each run
  refine ⟨?_, fun j k hj hk => ?_, fun j => ?_⟩
  · rw [proceed_inFlight, hflag, Bool.and_true, Option.isNone_iff_eq_none]
    exact ⟨fun h => ⟨i, (hopen i).mpr ⟨rfl, h⟩⟩, fun ⟨j, hj⟩ => ((hopen j).mp hj).2⟩
  · rw [((hopen j).mp hj).1, ((hopen k).mp hk).1]
  · by_cases hj : j = i
    · subst hj
      rw [proceed_runs_self, callsOf_proceed_self, hcalls]
      exact ⟨hsteps, rfl⟩
    · rw [proceed_runs_of_ne _ _ _ hj, callsOf_proceed_of_ne _ _ _ hj]
      exact hruns j hj

/-- A refused call of `run` changes nothing for the others. -/
theorem Inv.refuse (h : Inv u) (hnew : u.runs i = none) (message : String) :
    Inv (u.refuse i message) := by
  have hopen (j : ι) : (u.refuse i message).IsOpen j ↔ u.IsOpen j := by
    by_cases hj : j = i
    · subst hj
      simp [IsOpen, hnew]
    · simp [IsOpen, hj]
  refine ⟨?_, fun j k hj hk => ?_, fun j => ?_⟩
  · simp only [refuse_inFlight, hopen, h.flag]
  · exact h.exclusive j k ((hopen j).mp hj) ((hopen k).mp hk)
  · have hrun := h.runs j
    by_cases hj : j = i
    · subst hj
      rw [hnew] at hrun
      rw [refuse_runs_self]
      exact hrun
    · rw [refuse_runs_of_ne _ _ hj]
      exact hrun

/-- A run whose last call settles goes on as its program says. -/
theorem Inv.answered (h : Inv u) {past : History (port S V E)} {c : PortCall S}
    {next : (port S V E).Settled c → Program (port S V E) V} {suspended : Bool}
    (hrun : u.runs i = some (.admitted ⟨past, await c next, suspended⟩))
    (r : (port S V E).Settled c) : Inv (u.proceed i (past ++ [⟨c, r⟩]) (next r)) := by
  have hopen : u.IsOpen i := ⟨_, hrun, rfl⟩
  obtain ⟨hsteps, hcalls⟩ : Matches (u.callsOf i) (some (.admitted ⟨past, await c next, _⟩)) :=
    hrun ▸ h.runs i
  refine .proceed (h.flag.mpr ⟨i, hopen⟩) (fun j hj => h.exclusive j i hj hopen)
    (fun j _ => h.runs j) ?_ (.tail hsteps r)
  rw [hcalls, List.map_append]
  rfl

/-- A new run keeps the invariant. -/
theorem Inv.run (h : Inv u) (hnew : u.runs i = none) (bodyIsFunction : Bool) :
    Inv (u.run i bodyIsFunction) := by
  unfold Instance.run
  split_ifs with hfunction hflight
  · exact h.refuse hnew _
  · exact h.refuse hnew _
  · have hnone (j : ι) : ¬u.IsOpen j := fun hj => hflight (h.flag.mpr ⟨j, hj⟩)
    have hcalls : Matches (u.callsOf i) none := hnew ▸ h.runs i
    exact .proceed rfl (fun j hj => absurd hj (hnone j)) (fun j _ => h.runs j) hcalls (.refl _)

/-- A suspension keeps the invariant. -/
theorem Inv.suspend (h : Inv u) {past : History (port S V E)} {c : PortCall S}
    {next : (port S V E).Settled c → Program (port S V E) V} {suspended : Bool}
    (hrun : u.runs i = some (.admitted ⟨past, await c next, suspended⟩)) :
    Inv (u.suspend i ⟨past, await c next, suspended⟩) := by
  -- a run that waits is as open as before
  have hopen (j : ι) : (u.suspend i ⟨past, await c next, suspended⟩).IsOpen j ↔ u.IsOpen j := by
    by_cases hj : j = i
    · subst hj
      simp [IsOpen, hrun]
    · simp [IsOpen, hj]
  refine ⟨?_, fun j k hj hk => ?_, fun j => ?_⟩
  · simp only [suspend_inFlight, hopen, h.flag]
  · exact h.exclusive j k ((hopen j).mp hj) ((hopen k).mp hk)
  · have hmatches := h.runs j
    by_cases hj : j = i
    · subst hj
      rw [hrun] at hmatches
      rw [suspend_runs_self]
      exact hmatches
    · rw [suspend_runs_of_ne _ _ hj]
      exact hmatches

/-- Every step keeps the invariant. -/
theorem Inv.step (h : Inv u) (hstep : u.Step u') : Inv u' := by
  cases hstep with
  | run bodyIsFunction hnew => exact h.run hnew bodyIsFunction
  | threw e hrun => exact h.answered hrun (.error e)
  | returned hrun => exact h.suspend hrun
  | settled r hrun => exact h.answered hrun r

/-- The invariant holds of every reachable instance. -/
theorem Reachable.inv (h : Reachable u) : Inv u := by
  induction h with
  | initial => exact inv_initial
  | step _ hstep ih => exact ih.step hstep

/-! ### Every schedule -/

/-- A run that is open was open before, or has been called while none was. -/
theorem Step.isOpen (h : u.Step u') (hopen : u'.IsOpen i) : u.IsOpen i ∨ u.inFlight = false := by
  -- only a run that is admitted opens, and it is admitted with the flag down
  cases h with
  | @run j bodyIsFunction hnew =>
    by_cases hflight : u.inFlight
    · obtain ⟨message, hrefused⟩ := run_eq_refuse u (i := j) bodyIsFunction (.inr hflight)
      rw [hrefused] at hopen
      exact .inl (isOpen_of_refuse _ _ hopen)
    · exact .inr (Bool.eq_false_iff.mpr hflight)
  | @threw j past c next e hrun =>
    by_cases hj : i = j
    · exact .inl (hj ▸ ⟨_, hrun, rfl⟩)
    · exact .inl ((isOpen_proceed_of_ne _ _ _ hj).mp hopen)
  | @settled j past c next r hrun =>
    by_cases hj : i = j
    · exact .inl (hj ▸ ⟨_, hrun, rfl⟩)
    · exact .inl ((isOpen_proceed_of_ne _ _ _ hj).mp hopen)
  | @returned j past c next hrun =>
    by_cases hj : i = j
    · exact .inl (hj ▸ ⟨_, hrun, rfl⟩)
    · left
      simpa [IsOpen, hj] using hopen

/-- In every schedule one run at a time is open; each admitted run keeps the protocol, resolves only
after its commit and rejects with what its body failed with; a refused run calls nothing and leaves
the others alone; and a run is admitted whenever none is open, so after every run that settles. -/
theorem run_protocol (h : Reachable u) :
    (∀ i j, u.IsOpen i → u.IsOpen j → i = j) ∧
    (∀ i run, u.runs i = some (.admitted run) →
      Protocol (u.callsOf i) run.past run.left.outcome? ∧
      (∀ v, run.left.outcome? = some (.ok v) →
        ∃ s, run.past = [⟨.begin, .ok s⟩, ⟨.body s, .ok v⟩, ⟨.commit s, .ok ()⟩]) ∧
      ∀ s e, (⟨.body s, .error e⟩ : Event (port S V E)) ∈ run.past →
        u.callsOf i = [.begin, .body s, .rollback s] ∧
        (run.left.outcome? = none ∨ run.left.outcome? = some (.error e))) ∧
    (∀ i e, u.runs i = some (.refused e) → u.callsOf i = []) ∧
    (∀ i bodyIsFunction, u.runs i = none → (bodyIsFunction = false ∨ ∃ j, u.IsOpen j) →
      ∃ e, u.run i bodyIsFunction =
        { u with runs := Function.update u.runs i (some (.refused e)) }) ∧
    (∀ i, u.runs i = none → (∀ j, ¬u.IsOpen j) →
      (u.run i true).IsOpen i ∧ (u.run i true).calls = u.calls ++ [(i, .begin)]) ∧
    ∀ u' i, u.Step u' → u.IsOpen i → ¬u'.IsOpen i → ∀ j, u'.runs j = none →
      (u'.run j true).IsOpen j ∧ (u'.run j true).calls = u'.calls ++ [(j, .begin)] := by
  have hadmits {w : Instance ι S V E} (hw : Inv w) (i : ι) (hnone : ∀ j, ¬w.IsOpen j) :
      (w.run i true).IsOpen i ∧ (w.run i true).calls = w.calls ++ [(i, .begin)] := by
    have hflag : w.inFlight = false :=
      Bool.eq_false_iff.mpr fun hflag => (hw.flag.mp hflag).elim hnone
    rw [run_eq_proceed w hflag, isOpen_proceed_self, proceed_calls]
    exact ⟨rfl, rfl⟩
  refine ⟨h.inv.exclusive, fun i run hrun => ?_, fun i e hrun => ?_, fun i bodyIsFunction _ hwhy =>
    ?_,
    fun i _ hnone => hadmits h.inv i hnone, fun u' i hstep hopen hsettled j _ => ?_⟩
  · obtain ⟨hsteps, hcalls⟩ : Matches (u.callsOf i) (some (.admitted run)) := hrun ▸ h.inv.runs i
    have hprotocol : Protocol (u.callsOf i) run.past run.left.outcome? := by
      have hsafe := safe_admittedRun.of_steps hsteps
      rw [hcalls]
      cases hleft : run.left with
      | settled o =>
        rw [hleft] at hsafe
        rw [pending, List.append_nil]
        exact hsafe
      | await c next =>
        rw [hleft] at hsafe
        exact hsafe.1
    refine ⟨hprotocol, fun v hv => ?_, fun s e hfailed => hprotocol.failed hfailed⟩
    rw [hv] at hprotocol
    exact hprotocol.resolved
  · have hmatches := h.inv.runs i
    rw [hrun] at hmatches
    exact hmatches
  · obtain ⟨message, hrefused⟩ := run_eq_refuse u (i := i) bodyIsFunction
      (hwhy.imp id h.inv.flag.mpr)
    exact ⟨_, hrefused⟩
  · refine hadmits (h.inv.step hstep) j fun k hk => ?_
    -- whatever is open after the step was the run that has settled in it
    rcases hstep.isOpen hk with hbefore | hflag
    · exact hsettled (h.inv.exclusive k i hbefore hopen ▸ hk)
    · rw [h.inv.flag.mpr ⟨i, hopen⟩] at hflag
      cases hflag

theorem run_protocol_sample :
    ∃ u : Instance ℕ ℕ ℕ ℕ, Reachable u ∧
      ∃ run, u.runs 0 = some (.admitted run) ∧
        Protocol (u.callsOf 0) run.past run.left.outcome? ∧ u.callsOf 1 = [] := by
  -- the second run is called from inside `begin`, and the body of the first one throws
  have h₁ : Reachable ((initial : Instance ℕ ℕ ℕ ℕ).run 0 true) := .step .initial (.run true rfl)
  have h₂ := h₁.step (.run (i := 1) true rfl)
  have h₃ := h₂.step (.returned (i := 0) rfl)
  have h₄ := h₃.step (.settled (i := 0) (.ok 7) rfl)
  have h₅ := h₄.step (.threw (i := 0) 5 rfl)
  have hprotocol := run_protocol h₅
  exact ⟨_, h₅, _, rfl, (hprotocol.2.1 0 _ rfl).1, hprotocol.2.2.1 1 _ rfl⟩

end Instance

end MetaframerKernel.UnitOfWork
