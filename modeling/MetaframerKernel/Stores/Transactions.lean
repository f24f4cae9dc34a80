import MetaframerKernel.Async.System

/-!
# Transactional stores

A store of rows that concurrent programs write to through the sessions of a pool of clients. A
transaction commits as a whole or not at all, and only when the constraints of the store admit its
writes.

What one program knows of the store is its own view: the client it holds, the session of that
client, and the transactions it has committed. As long as every program uses the client it holds,
and returns it idle, all views are right.

## Main definitions

* `Session`, `Statement`: the state of one connection and what changes it;
* `Store`, `Store.Step`: the committed transactions and what a program does to them;
* `View`, `Disciplined`: the view of one program and the actions it allows.

## Main results

* `Views.step`: a disciplined action keeps every view right;
* `views_of_reachable`: in a system of disciplined programs every view is right.
-/

namespace Stores

open Async

variable {ι κ W : Type}

/-! ## Sessions -/

/-- The state of a connection: the writes of its transaction so far, if it is in one. -/
inductive Session (W : Type) where
  | idle
  | active (writes : List W)
  | aborted

/-- What a statement is to the store. -/
inductive Statement (W : Type) where
  | begin
  | read
  | write (w : W)
  | commit
  | rollback

namespace Session

/-- The session after a failed statement. -/
def fail : Session W → Session W
  | idle => idle
  | _ => aborted

/-- The session after a statement that succeeded or failed. A rollback takes effect either way. -/
def next (s : Session W) : Statement W → Bool → Session W
  -- however it is answered: a rejected `ROLLBACK` takes effect too
  | .rollback, _ => idle
  | _, false => s.fail
  | .begin, true =>
      match s with
      | idle => active []
      | s => s
  | .read, true => s
  | .write w, true =>
      match s with
      | active writes => active (writes ++ [w])
      | s => s
  | .commit, true => idle

/-- The transaction a statement commits. Outside a transaction a write is one of its own. -/
def commits (s : Session W) : Statement W → Bool → Option (List W)
  -- outside a transaction a statement is a transaction of its own
  | .write w, true =>
      match s with
      | idle => some [w]
      | _ => none
  | .commit, true =>
      match s with
      | active writes => some writes
      | _ => none
  | _, _ => none

/-- The writes a statement asks the constraints about. -/
def checks (s : Session W) : Statement W → Bool → Option (List W)
  | .write w, true =>
      match s with
      | idle => some [w]
      | active writes => some (writes ++ [w])
      | aborted => none
  | st, ok => s.commits st ok

end Session

/-! ## The store -/

/-- The committed transactions, each with the program that committed it, in commit order; and for
each client the program that holds it and its session. -/
structure Store (ι κ W : Type) where
  committed : List (ι × List W)
  holder : κ → Option ι
  session : κ → Session W

/-- The store nothing has been written to. -/
def Store.empty : Store ι κ W := ⟨[], fun _ => none, fun _ => .idle⟩

/-- The writes of a list of transactions. -/
def writesOf (transactions : List (ι × List W)) : List W :=
  (transactions.map Prod.snd).flatten

/-- The rows of the store, in commit order. -/
def Store.rows (s : Store ι κ W) : List W := writesOf s.committed

/-- What a call of a program is to the store. -/
inductive Action (κ W : Type) where
  | none
  | connect (client : κ)
  | statement (client : κ) (st : Statement W) (ok : Bool)
  | release (client : κ)

section Effects

variable [DecidableEq κ]

/-- The store after a client has changed hands. -/
def Store.hand (s : Store ι κ W) (k : κ) (holder : Option ι) : Store ι κ W :=
  { s with holder := Function.update s.holder k holder }

/-- The store after a statement of a program. -/
def Store.execute (s : Store ι κ W) (i : ι) (k : κ) (st : Statement W) (ok : Bool) :
    Store ι κ W where
  committed := s.committed ++ (((s.session k).commits st ok).map fun writes => (i, writes)).toList
  holder := s.holder
  session := Function.update s.session k ((s.session k).next st ok)

variable (s : Store ι κ W) (i : ι) {k k' : κ} (holder : Option ι) (st : Statement W) (ok : Bool)

/-- A client that is handed over has its new holder. -/
@[simp]
theorem Store.hand_holder_self : (s.hand k holder).holder k = holder := Function.update_self _ _ _

/-- The other clients keep their holders. -/
@[simp]
theorem Store.hand_holder_of_ne (h : k' ≠ k) : (s.hand k holder).holder k' = s.holder k' :=
  Function.update_of_ne h _ _

/-- A statement moves the session of its client. -/
@[simp]
theorem Store.execute_session_self :
    (s.execute i k st ok).session k = (s.session k).next st ok := Function.update_self _ _ _

/-- A statement leaves the other sessions as they were. -/
@[simp]
theorem Store.execute_session_of_ne (h : k' ≠ k) :
    (s.execute i k st ok).session k' = s.session k' := Function.update_of_ne h _ _

/-- What the store may do on an action of a program. The pool hands out a client that is free, and
writes succeed and commit only when they are admitted beside the rows already committed. -/
inductive Store.Step (admits : List W → List W → Prop) (s : Store ι κ W) (i : ι) :
    Action κ W → Store ι κ W → Prop
  | none : Step admits s i .none s
  | connect (k : κ) : s.holder k = .none → Step admits s i (.connect k) (s.hand k (some i))
  | statement (k : κ) (st : Statement W) (ok : Bool) :
      (∀ writes, (s.session k).checks st ok = some writes → admits s.rows writes) →
      Step admits s i (.statement k st ok) (s.execute i k st ok)
  | release (k : κ) : Step admits s i (.release k) (s.hand k .none)

end Effects

/-! ## Views -/

/-- What a program knows: the client it holds with its session, and what it has committed. -/
structure View (κ W : Type) where
  held : Option (κ × Session W)
  done : List (List W)

namespace View

/-- The view of a program that has done nothing. -/
def initial : View κ W := ⟨none, []⟩

/-- The view after an action of the program itself. -/
def next (v : View κ W) : Action κ W → View κ W
  | .none => v
  | .connect k => { v with held := some (k, .idle) }
  | .statement _ st ok =>
      match v.held with
      | some (k, s) => ⟨some (k, s.next st ok), v.done ++ (s.commits st ok).toList⟩
      | none => v
  | .release _ => { v with held := none }

/-- The actions a view allows: take a client when none is held, use the one that is held, and
return it idle. -/
def Disciplined (v : View κ W) : Action κ W → Prop
  | .none => True
  | .connect _ => v.held = none
  | .statement k _ _ => ∃ s, v.held = some (k, s)
  | .release k => v.held = some (k, .idle)

end View

/-- Every view is right. -/
structure Views [DecidableEq ι] (admits : List W → List W → Prop) (s : Store ι κ W)
    (view : ι → View κ W) : Prop where
  held : ∀ i k t, (view i).held = some (k, t) → s.holder k = some i ∧ s.session k = t
  holder : ∀ i k, s.holder k = some i → ∃ t, (view i).held = some (k, t)
  free : ∀ k, s.holder k = none → s.session k = .idle
  done : ∀ i, (view i).done = (s.committed.filter fun tx => tx.1 = i).map Prod.snd
  admitted : ∀ before tx after, s.committed = before ++ tx :: after →
    admits (writesOf before) tx.2

/-- The writes of two lists of transactions follow one another. -/
theorem writesOf_append (earlier later : List (ι × List W)) :
    writesOf (earlier ++ later) = writesOf earlier ++ writesOf later := by
  rw [writesOf, List.map_append, List.flatten_append, writesOf, writesOf]

/-- The constraints have been asked about whatever a statement commits. -/
theorem Session.checks_of_commits {s : Session W} {st : Statement W} {ok : Bool} {writes : List W}
    (h : s.commits st ok = some writes) : s.checks st ok = some writes := by
  cases st with
  | write w =>
    cases ok with
    | false => exact h
    | true =>
      cases s with
      | idle => exact h
      | _ => cases h
  | _ => exact h

section Preservation

variable {admits : List W → List W → Prop} [DecidableEq ι] {s : Store ι κ W}
  {view : ι → View κ W}

/-- In an empty store no program has a view. -/
theorem views_empty : Views admits (Store.empty : Store ι κ W) fun _ => View.initial where
  held _ _ _ h := by cases h
  holder _ _ h := by cases h
  free _ _ := rfl
  done _ := rfl
  admitted before tx after h := by cases before <;> cases h

/-- Two programs hold different clients. -/
theorem Views.ne_of_held (h : Views admits s view) {i j : ι} (hij : j ≠ i) {k k' : κ}
    (hk : s.holder k = some i) {t : Session W} (hk' : (view j).held = some (k', t)) : k' ≠ k := by
  rintro rfl
  have hholder := (h.held j k' t hk').1
  rw [hk, Option.some.injEq] at hholder
  exact hij hholder.symm

/-- The transactions of a program, read off its view. -/
theorem Views.filter_eq (h : Views admits s view) (i : ι) :
    s.committed.filter (fun tx => tx.1 = i) = (view i).done.map fun writes => (i, writes) := by
  rw [h.done i, List.map_map]
  have hsame : (s.committed.filter (fun tx => tx.1 = i)).map (fun tx => (i, tx.2))
      = (s.committed.filter (fun tx => tx.1 = i)).map id := by
    refine List.map_congr_left fun tx htx => ?_
    have hi : tx.1 = i := of_decide_eq_true (List.mem_filter.mp htx).2
    rw [← hi]
    rfl
  rw [List.map_id] at hsame
  exact hsame.symm

variable [DecidableEq κ]

/-- What is not about the client that changes hands stays right. -/
theorem Views.hand (h : Views admits s view) {i : ι} {k : κ} {holder : Option ι} {v : View κ W}
    (hdone : v.done = (view i).done)
    (hheld : ∀ j k' t, (Function.update view i v j).held = some (k', t) →
      (s.hand k holder).holder k' = some j ∧ s.session k' = t)
    (hholder : ∀ j k', (s.hand k holder).holder k' = some j →
      ∃ t, (Function.update view i v j).held = some (k', t))
    (hfree : ∀ k', (s.hand k holder).holder k' = none → s.session k' = .idle) :
    Views admits (s.hand k holder) (Function.update view i v) where
  held := hheld
  holder := hholder
  free := hfree
  done j := by
    by_cases hj : j = i
    · subst hj
      rw [Function.update_self, hdone]
      exact h.done j
    · rw [Function.update_of_ne hj]
      exact h.done j
  admitted := h.admitted

/-- A program that is handed a free client sees it as its own. -/
theorem Views.connect (h : Views admits s view) {i : ι} {k : κ} (hfree : s.holder k = none)
    (hnone : (view i).held = none) :
    Views admits (s.hand k (some i)) (Function.update view i ((view i).next (.connect k))) := by
  -- the client was free, so no other view holds it
  refine h.hand rfl ?_ ?_ ?_
  · intro j k' t hheld
    by_cases hj : j = i
    · subst hj
      rw [Function.update_self] at hheld
      obtain ⟨rfl, rfl⟩ := Prod.mk.inj (Option.some.inj hheld)
      exact ⟨s.hand_holder_self _, h.free _ hfree⟩
    · rw [Function.update_of_ne hj] at hheld
      obtain ⟨hholder, hsession⟩ := h.held j k' t hheld
      have hne : k' ≠ k := by
        rintro rfl
        rw [hfree] at hholder
        cases hholder
      exact ⟨(s.hand_holder_of_ne _ hne).trans hholder, hsession⟩
  · intro j k' hholder
    by_cases hk : k' = k
    · subst hk
      rw [Store.hand_holder_self] at hholder
      obtain rfl := Option.some.inj hholder
      rw [Function.update_self]
      exact ⟨.idle, rfl⟩
    · rw [Store.hand_holder_of_ne _ _ hk] at hholder
      obtain ⟨t, ht⟩ := h.holder j k' hholder
      have hj : j ≠ i := by
        rintro rfl
        rw [hnone] at ht
        cases ht
      rw [Function.update_of_ne hj]
      exact ⟨t, ht⟩
  · intro k' hk'
    by_cases hk : k' = k
    · rw [hk]
      exact h.free k hfree
    · rw [Store.hand_holder_of_ne _ _ hk] at hk'
      exact h.free k' hk'

/-- A program that releases an idle client sees it no more. -/
theorem Views.release (h : Views admits s view) {i : ι} {k : κ}
    (hidle : (view i).held = some (k, .idle)) :
    Views admits (s.hand k none) (Function.update view i ((view i).next (.release k))) := by
  obtain ⟨hheldk, hsessionk⟩ := h.held i k _ hidle
  -- the client is held by this view alone, and is idle
  refine h.hand rfl ?_ ?_ ?_
  · intro j k' t hheld
    by_cases hj : j = i
    · subst hj
      rw [Function.update_self] at hheld
      cases hheld
    · rw [Function.update_of_ne hj] at hheld
      rw [Store.hand_holder_of_ne _ _ (h.ne_of_held hj hheldk hheld)]
      exact h.held j k' t hheld
  · intro j k' hholder
    have hk : k' ≠ k := by
      rintro rfl
      rw [Store.hand_holder_self] at hholder
      cases hholder
    rw [Store.hand_holder_of_ne _ _ hk] at hholder
    obtain ⟨t, ht⟩ := h.holder j k' hholder
    have hj : j ≠ i := by
      rintro rfl
      rw [hidle, Option.some.injEq, Prod.mk.injEq] at ht
      exact hk ht.1.symm
    rw [Function.update_of_ne hj]
    exact ⟨t, ht⟩
  · intro k' hk'
    by_cases hk : k' = k
    · rw [hk]
      exact hsessionk
    · rw [Store.hand_holder_of_ne _ _ hk] at hk'
      exact h.free k' hk'

/-- A program that executes a statement sees what its session makes of it. -/
theorem Views.execute (h : Views admits s view) {i : ι} {k : κ} {t : Session W}
    (hheld : (view i).held = some (k, t)) {st : Statement W} {ok : Bool}
    (hchecks : ∀ writes, t.checks st ok = some writes → admits s.rows writes) :
    Views admits (s.execute i k st ok)
      (Function.update view i ((view i).next (.statement k st ok))) := by
  obtain ⟨hholderk, rfl⟩ := h.held i k t hheld
  have hnext : (view i).next (.statement k st ok) =
      ⟨some (k, (s.session k).next st ok), (view i).done ++
        ((s.session k).commits st ok).toList⟩ := by
    rw [View.next, hheld]
  rw [hnext]
  -- the statement changes the session and the view of its owner, and no other
  refine ⟨?_, ?_, ?_, ?_, ?_⟩
  · intro j k' t' ht'
    by_cases hj : j = i
    · subst hj
      rw [Function.update_self] at ht'
      obtain ⟨rfl, rfl⟩ := Prod.mk.inj (Option.some.inj ht')
      exact ⟨hholderk, s.execute_session_self _ _ _⟩
    · rw [Function.update_of_ne hj] at ht'
      rw [Store.execute_session_of_ne _ _ _ _ (h.ne_of_held hj hholderk ht')]
      exact h.held j k' t' ht'
  · intro j k' hholder
    obtain ⟨t', ht'⟩ := h.holder j k' hholder
    by_cases hj : j = i
    · subst hj
      rw [hheld, Option.some.injEq, Prod.mk.injEq] at ht'
      rw [Function.update_self, ← ht'.1]
      exact ⟨_, rfl⟩
    · rw [Function.update_of_ne hj]
      exact ⟨t', ht'⟩
  · intro k' hfree
    have hk : k' ≠ k := by
      rintro rfl
      exact absurd (hholderk.symm.trans hfree) (Option.some_ne_none i)
    rw [Store.execute_session_of_ne _ _ _ _ hk]
    exact h.free k' hfree
  · intro j
    simp only [Store.execute, List.filter_append, List.map_append]
    by_cases hj : j = i
    · subst hj
      rw [Function.update_self, h.done j]
      cases (s.session k).commits st ok <;> simp
    · rw [Function.update_of_ne hj, h.done j]
      cases (s.session k).commits st ok <;> simp [Ne.symm hj]
  · intro before tx after hcommitted
    cases hcommits : (s.session k).commits st ok with
    | none =>
      simp only [Store.execute, hcommits, Option.map_none, Option.toList_none,
        List.append_nil] at hcommitted
      exact h.admitted before tx after hcommitted
    | some writes =>
      simp only [Store.execute, hcommits, Option.map_some, Option.toList_some] at hcommitted
      -- either the transaction in question is the one just committed, or it was there before
      rcases List.eq_nil_or_concat after with rfl | ⟨after, last, rfl⟩
      · -- the new transaction was admitted beside all the others
        obtain ⟨rfl, htx⟩ := List.append_inj' hcommitted rfl
        obtain rfl := (List.cons.inj htx).1
        exact hchecks writes (Session.checks_of_commits hcommits)
      · rw [List.concat_eq_append, ← List.cons_append, ← List.append_assoc] at hcommitted
        exact h.admitted before tx after (List.append_inj' hcommitted rfl).1

/-- A disciplined action keeps every view right. -/
theorem Views.step (h : Views admits s view) {i : ι} {a : Action κ W}
    (hdisciplined : (view i).Disciplined a) {s' : Store ι κ W} (hstep : s.Step admits i a s') :
    Views admits s' (Function.update view i ((view i).next a)) := by
  cases hstep with
  | none =>
    rw [View.next, Function.update_eq_self]
    exact h
  | connect k hfree => exact h.connect hfree hdisciplined
  | statement k st ok hchecks =>
    obtain ⟨t, ht⟩ := hdisciplined
    rw [(h.held i k t ht).2] at hchecks
    exact h.execute ht hchecks
  | release k => exact h.release hdisciplined

end Preservation

/-! ## Systems of disciplined programs -/

section System

variable {I : Interface} {α : Type}

/-- The view after the calls of a program, by what each is to the store. -/
def viewAfter (action : Event I → Action κ W) (past : History I) : View κ W :=
  past.foldl (fun v ev => v.next (action ev)) .initial

/-- One more event moves the view by one action. -/
theorem viewAfter_append (action : Event I → Action κ W) (past : History I) (ev : Event I) :
    viewAfter action (past ++ [ev]) = (viewAfter action past).next (action ev) := by
  rw [viewAfter, List.foldl_append]
  rfl

/-- Every way a call can settle is an action the view allows. -/
def IsDisciplined (action : Event I → Action κ W) (past : History I) (c : I.Call) : Prop :=
  ∀ r : I.Settled c, (viewAfter action past).Disciplined (action ⟨c, r⟩)

variable [DecidableEq ι] [DecidableEq κ] {admits : List W → List W → Prop}

/-- Disciplined programs have right views of the store they share. -/
theorem views_of_reachable {action : Event I → Action κ W} {sys : System I ι (Store ι κ W) α}
    {Q : ι → History I → Except I.Reason α → Prop}
    (hanswers : ∀ s i ev s', sys.Answers s i ev s' → s.Step admits i (action ev) s')
    (hsafe : ∀ i, Safe (IsDisciplined action) (Q i) [] (sys.program i))
    {cfg : Config I ι (Store ι κ W) α} (h : sys.Reachable .empty cfg) :
    Views admits cfg.state fun i => viewAfter action (cfg.past i) := by
  refine h.invariant (P := fun s past => Views admits s fun i => viewAfter action (past i))
    hsafe views_empty ?_
  intro s past i c r s' hviews hguard hstep
  have hupdate : (fun j => viewAfter action (Function.update past i (past i ++ [⟨c, r⟩]) j)) =
      Function.update (fun j => viewAfter action (past j)) i
        ((viewAfter action (past i)).next (action ⟨c, r⟩)) := by
    funext j
    by_cases hj : j = i
    · subst hj
      rw [Function.update_self, Function.update_self, viewAfter_append]
    · rw [Function.update_of_ne hj, Function.update_of_ne hj]
  rw [hupdate]
  exact hviews.step (hguard r) (hanswers _ _ _ _ hstep)

end System

end Stores
