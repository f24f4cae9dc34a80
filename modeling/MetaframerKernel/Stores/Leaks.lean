import MetaframerKernel.Async.Mixed
import MetaframerKernel.Stores.Sessions

/-!
# Rollbacks that take no effect

A store whose ROLLBACK may be rejected, and then has done nothing: the transaction stays open on its
connection, also when the client goes back to the pool. Where that happens on idle connections only,
such a store takes no step that one with effective rollbacks does not take.

## Main definitions

* `Store.PooledStep`: what such a store may do on an action of a program;
* `Undisturbed`: an action that does not leave a transaction behind a rejected ROLLBACK;
* `Tidy`: the calls of a program that uses the client it holds, begins on it when it is idle and
  returns it idle.

## Main results

* `step_of_undisturbed`: an undisturbed step is one of a store whose rollbacks take effect;
* `tidy_transaction`: the rule of a transaction;
* `views_of_undisturbed`: tidy programs have right views of the store they share, as long as they
  are undisturbed.
-/

namespace Stores

open Async Program

variable {ι κ W : Type}

section Steps

variable [DecidableEq κ]

/-- What the store may do on an action of a program: a rejected ROLLBACK leaves the session as it
is, and any statement may succeed or fail. -/
inductive Store.PooledStep (s : Store ι κ W) (i : ι) : Action κ W → Store ι κ W → Prop
  | none : PooledStep s i .none s
  | connect (k : κ) : s.holder k = .none → PooledStep s i (.connect k) (s.hand k (some i))
  | statement (k : κ) (st : Statement W) (ok : Bool) : (st = .rollback → ok = true) →
      PooledStep s i (.statement k st ok) (s.execute i k st ok)
  | notRolledBack (k : κ) : PooledStep s i (.statement k .rollback false) s
  | release (k : κ) : PooledStep s i (.release k) (s.hand k .none)

/-- If the action is a rejected ROLLBACK, no transaction is open on its client. -/
def Undisturbed (s : Store ι κ W) (a : Action κ W) : Prop :=
  ∀ k, a = .statement k .rollback false → s.session k = .idle

/-- A rejected ROLLBACK on an idle client is nothing to the store. -/
theorem Store.execute_rollback_of_idle {s : Store ι κ W} {k : κ} (h : s.session k = .idle) (i : ι)
    (ok : Bool) : s.execute i k .rollback ok = s := by
  have hsession : Function.update s.session k .idle = s.session := by
    rw [← h, Function.update_eq_self]
  obtain ⟨committed, holder, session⟩ := s
  cases ok <;>
    simp only [Store.execute, Session.commits, Session.next, hsession, Option.map_none,
      Option.toList_none, List.append_nil]

/-- An undisturbed step is one of a store whose rollbacks take effect and whose constraints admit
everything. -/
theorem step_of_undisturbed {s s' : Store ι κ W} {i : ι} {a : Action κ W}
    (h : s.PooledStep i a s') (hundisturbed : Undisturbed s a) :
    s.Step (fun _ _ => True) i a s' := by
  cases h with
  | none => exact .none
  | connect k hfree => exact .connect k hfree
  | statement k st ok _ => exact .statement k st ok fun _ _ => trivial
  | notRolledBack k =>
    have hstep : s.Step (fun _ _ => True) i (.statement k .rollback false)
        (s.execute i k .rollback false) := .statement k .rollback false fun _ _ => trivial
    rwa [Store.execute_rollback_of_idle (hundisturbed k rfl)] at hstep
  | release k => exact .release k

end Steps

/-! ## Tidy programs -/

section Tidy

variable {I : Interface} {action : Event I → Action κ W} {α β : Type} {k : κ} {past : History I}

/-- The call is allowed by the view, and a BEGIN finds the client of the program idle. -/
def Tidy (action : Event I → Action κ W) (past : History I) (c : I.Call) : Prop :=
  ∀ r, (viewAfter action past).Disciplined (action ⟨c, r⟩) ∧
    ∀ k ok, action ⟨c, r⟩ = .statement k .begin ok →
      (viewAfter action past).held = some (k, .idle)

/-- The program holds the client, idle. -/
def HoldsIdle (action : Event I → Action κ W) (k : κ) (past : History I) : Prop :=
  (viewAfter action past).held = some (k, .idle)

/-- The program holds the client, maybe in a transaction. -/
def Holds (action : Event I → Action κ W) (k : κ) (past : History I) : Prop :=
  ∃ s, (viewAfter action past).held = some (k, s)

/-- The program holds no client. -/
def HoldsNone (action : Event I → Action κ W) (past : History I) : Prop :=
  (viewAfter action past).held = none

/-- The call is nothing to the store, or a statement on the client that begins nothing. -/
def IsOwnCall (action : Event I → Action κ W) (k : κ) (c : I.Call) : Prop :=
  ∀ r, action ⟨c, r⟩ = .none ∨ ∃ st ok, st ≠ .begin ∧ action ⟨c, r⟩ = .statement k st ok

/-- The call is that statement on the client. -/
def Issues (action : Event I → Action κ W) (k : κ) (st : Statement W) (c : I.Call) : Prop :=
  ∀ r, action ⟨c, r⟩ = .statement k st r.isOk

/-- A statement on the client that is held. -/
theorem held_statement {s : Session W} (h : (viewAfter action past).held = some (k, s))
    {ev : Event I} {st : Statement W} {ok : Bool} (hev : action ev = .statement k st ok) :
    (viewAfter action (past ++ [ev])).held = some (k, s.next st ok) := by
  rw [viewAfter_append, hev, View.next, h]

/-- A client that is taken is idle. -/
theorem tidy_connect {c : I.Call} (client : I.Answer c → κ)
    (hconnect : ∀ a, action ⟨c, .ok a⟩ = .connect (client a))
    (herror : ∀ e, action ⟨c, .error e⟩ = .none) (h : HoldsNone action past) :
    Safe (Tidy action)
      (fun past r => match r with
        | .ok a => HoldsIdle action (client a) past
        | .error _ => HoldsNone action past) past (ask c) := by
  -- first that the call is allowed here, then what is known after it
  refine Safe.ask (fun r => ?_) fun r => ?_
  · cases r with
    | ok a =>
      rw [hconnect]
      exact ⟨h, nofun⟩
    | error e =>
      rw [herror]
      exact ⟨trivial, nofun⟩
  · cases r with
    | ok a =>
      change (viewAfter action (past ++ [⟨c, .ok a⟩])).held = _
      rw [viewAfter_append, hconnect]
      rfl
    | error e =>
      change (viewAfter action (past ++ [⟨c, .error e⟩])).held = _
      rw [viewAfter_append, herror]
      exact h

/-- A statement on an idle client. -/
theorem tidy_statement {c : I.Call} {st : Statement W} (hc : Issues action k st c)
    (h : HoldsIdle action k past) :
    Safe (Tidy action) (fun past r => (viewAfter action past).held =
      some (k, Session.idle.next st r.isOk)) past (ask c) := by
  refine Safe.ask (fun r => ?_) fun r => held_statement h (hc r)
  rw [hc r]
  refine ⟨⟨_, h⟩, ?_⟩
  rintro k' ok ⟨⟩
  exact h

/-- Own calls keep the client. -/
theorem tidy_own {p : Program I α} (hp : Calls (IsOwnCall action k) p) (h : Holds action k past) :
    Safe (Tidy action) (fun past _ => Holds action k past) past p := by
  refine ((hp.safe past).keep h ?_).mono (fun _ _ h => h.2) |>.weaken ?_
  · rintro past c r hown ⟨s, hs⟩
    rcases hown r with hnone | ⟨st, ok, -, hst⟩
    · refine ⟨s, ?_⟩
      rw [viewAfter_append, hnone]
      exact hs
    · exact ⟨_, held_statement hs hst⟩
  · rintro past c ⟨hown, s, hs⟩ r
    rcases hown r with hnone | ⟨st, ok, hne, hst⟩
    · rw [hnone]
      exact ⟨trivial, nofun⟩
    · rw [hst]
      refine ⟨⟨s, hs⟩, ?_⟩
      rintro k' ok' ⟨⟩
      exact absurd rfl hne

/-- After its rollback a client counts as idle. -/
theorem tidy_rollback {c : I.Call} (hc : Issues action k .rollback c) (h : Holds action k past) :
    Safe (Tidy action) (fun past _ => HoldsIdle action k past) past (ask c) := by
  obtain ⟨s, hs⟩ := h
  refine Safe.ask (fun r => ?_) fun r => ?_
  · rw [hc r]
    exact ⟨⟨s, hs⟩, nofun⟩
  · have hnext : s.next .rollback r.isOk = .idle := by cases r.isOk <;> rfl
    rw [HoldsIdle, held_statement hs (hc r), hnext]

/-- A client is idle once its commit is fulfilled. -/
theorem tidy_commit {c : I.Call} (hc : Issues action k .commit c) (h : Holds action k past) :
    Safe (Tidy action)
      (fun past r => match r with
        | .ok _ => HoldsIdle action k past
        | .error _ => Holds action k past) past (ask c) := by
  obtain ⟨s, hs⟩ := h
  refine Safe.ask (fun r => ?_) fun r => ?_
  · rw [hc r]
    exact ⟨⟨s, hs⟩, nofun⟩
  · cases r with
    | ok a => exact held_statement hs (hc (.ok a))
    | error e => exact ⟨_, held_statement hs (hc (.error e))⟩

/-- An idle client is returned. -/
theorem tidy_release {c : I.Call} (hc : ∀ r, action ⟨c, r⟩ = .release k)
    (h : HoldsIdle action k past) :
    Safe (Tidy action) (fun past _ => HoldsNone action past) past (ask c) := by
  refine Safe.ask (fun r => ?_) fun r => ?_
  · rw [hc r]
    exact ⟨h, nofun⟩
  · rw [HoldsNone, viewAfter_append, hc r]
    rfl

/-- What a transaction leaves: a client that is idle once it has committed, and one still held where
it failed. -/
def AfterCommit (action : Event I → Action κ W) (k : κ) (past : History I) :
    Except I.Reason α → Prop
  | .ok _ => HoldsIdle action k past
  | .error _ => Holds action k past

/-- The rule of a transaction: whatever is called between BEGIN and COMMIT, a failure is rolled
back and the client is returned. -/
theorem tidy_transaction {connect : I.Call} (client : I.Answer connect → κ)
    {begin commit rollback release : I.Answer connect → I.Call}
    {inner : I.Answer connect → Program I β} {f : β → α} {translate : I.Reason → I.Reason}
    (h : HoldsNone action past)
    (hconnect : ∀ a, action ⟨connect, .ok a⟩ = .connect (client a))
    (hnoClient : ∀ e, action ⟨connect, .error e⟩ = .none)
    (hbegin : ∀ a, Issues action (client a) .begin (begin a))
    (hcommit : ∀ a, Issues action (client a) .commit (commit a))
    (hrollback : ∀ a, Issues action (client a) .rollback (rollback a))
    (hrelease : ∀ a r, action ⟨release a, r⟩ = .release (client a))
    (hinner : ∀ a, Calls (IsOwnCall action (client a)) (inner a)) :
    Safe (Tidy action) (fun past _ => HoldsNone action past) past
      (ask connect >>= fun a =>
        Program.ensuring
          (tryCatch
            (ask (begin a) >>= fun _ => inner a >>= fun b => ask (commit a) >>= fun _ => pure (f b))
            fun error => do
              let _ ← (ask (rollback a)).regardless
              throw (translate error))
          (ask (release a)).regardless) := by
  refine (tidy_connect client hconnect hnoClient h).bind ?_ fun _ _ h => h
  intro past a hidle
  -- up to the commit the transaction may be left open; the handler closes it
  have hstatements : Safe (Tidy action) (AfterCommit action (client a)) past
      (ask (begin a) >>= fun _ => inner a >>= fun b => ask (commit a) >>= fun _ => pure (f b)) := by
    refine (tidy_statement (hbegin a) hidle).bind ?_ fun _ _ h => ⟨_, h⟩
    intro past _ hbegun
    refine (tidy_own (hinner a) ⟨_, hbegun⟩).bind ?_ fun _ _ h => h
    intro past b hheld
    exact (tidy_commit (hcommit a) hheld).bind (fun _ _ h => h) fun _ _ h => h
  have hclosed : Safe (Tidy action) (fun past _ => HoldsIdle action (client a) past) past
      (tryCatch
        (ask (begin a) >>= fun _ => inner a >>= fun b => ask (commit a) >>= fun _ => pure (f b))
        fun error => do
          let _ ← (ask (rollback a)).regardless
          throw (translate error)) := by
    refine hstatements.tryCatch (fun _ _ h => h) ?_
    intro past e hheld
    refine (Safe.regardless (tidy_rollback (hrollback a) hheld)).bind (fun _ _ h => h.1) ?_
    rintro past _ ⟨-, h⟩
    cases h
  refine hclosed.ensuring ?_
  intro past o hidle
  exact (Safe.regardless (tidy_release (hrelease a) hidle)).mono fun _ _ h => h.1

end Tidy

/-! ## Systems of undisturbed programs -/

section System

variable [DecidableEq ι] [DecidableEq κ] {sys : Mixed ι (Store ι κ W)}
  {action : ∀ i, Event (sys.interface i) → Action κ W} {cfg : sys.Config}
  {Q : ∀ i, History (sys.interface i) → Except (sys.interface i).Reason (sys.result i) → Prop}

/-- As long as no ROLLBACK is rejected on an open transaction, tidy programs have right views of the
store they share. -/
theorem views_of_undisturbed
    (hanswers : ∀ s i ev s', sys.Answers s i ev s' →
      s.PooledStep i (action i ev) s' ∧ Undisturbed s (action i ev))
    (hsafe : ∀ i, Safe (Tidy (action i)) (Q i) [] (sys.program i))
    (h : sys.Reachable .empty cfg) :
    Views (fun _ _ => True) cfg.state fun i => viewAfter (action i) (cfg.past i) := by
  refine h.invariant
    (P := fun s past => Views (fun _ _ => True) s fun i => viewAfter (action i) (past i))
    hsafe views_empty ?_
  intro s past i c r s' hviews hcall hstep
  obtain ⟨hpooled, hundisturbed⟩ := hanswers _ _ _ _ hstep
  -- one more answer is one more step of the view of its process, and of no other
  have hupdate :
      (fun j => viewAfter (action j) (Function.update past i (past i ++ [⟨c, r⟩]) j)) =
        Function.update (fun j => viewAfter (action j) (past j)) i
          ((viewAfter (action i) (past i)).next (action i ⟨c, r⟩)) := by
    funext j
    by_cases hj : j = i
    · subst hj
      rw [Function.update_self, Function.update_self, viewAfter_append]
    · rw [Function.update_of_ne hj, Function.update_of_ne hj]
  rw [hupdate]
  exact hviews.step (hcall r).1 (step_of_undisturbed hpooled hundisturbed)

end System

end Stores
