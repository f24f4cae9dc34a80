import MetaframerKernel.Stores.Transactions

/-!
# Transactions of programs

A program that takes a client, runs one transaction on it, rolls back on any failure and returns
the client keeps the discipline its view asks for. What it has committed can be read off its
outcome: one transaction when it is fulfilled, nothing when it is rejected.

## Main definitions

* `Held`: a program holds a client, in a session, and has committed what it has;
* `Settled`: how a whole transaction ends;
* `Keeps`: the calls that commit only transactions of a kind.

## Main results

* `safe_statement`: the rule of one statement;
* `safe_transaction`: the rule of a transaction;
* `committed_of_reachable`: what has been committed in a system of such programs.
-/

namespace Stores

open Async Program

variable {I : Interface} {κ W α β : Type} {action : Event I → Action κ W}

/-- After these calls the program holds a client in the given session, and has committed the given
transactions. -/
def Held (action : Event I → Action κ W) (k : κ) (s : Session W) (done : List (List W))
    (past : History I) : Prop :=
  viewAfter action past = ⟨some (k, s), done⟩

/-- How the statements of a transaction end: with their commit, or anywhere. -/
def Ended (action : Event I → Action κ W) (k : κ) (done : List (List W))
    (Wrote : α → List W → Prop) (past : History I) : Except I.Reason α → Prop
  | .ok a => ∃ writes, Wrote a writes ∧ Held action k .idle (done ++ [writes]) past
  | .error _ => ∃ s, Held action k s done past

/-- How a transaction ends that returns its client: it has committed its writes, or nothing. -/
def Settled (action : Event I → Action κ W) (done : List (List W))
    (Wrote : α → List W → Prop) (past : History I) : Except I.Reason α → Prop
  | .ok a => ∃ writes, Wrote a writes ∧ viewAfter action past = ⟨none, done ++ [writes]⟩
  | .error _ => viewAfter action past = ⟨none, done⟩

/-- A function of the value settles with the writes of the program. -/
theorem Settled.map {done : List (List W)} {Wrote : α → List W → Prop}
    {Wrote' : β → List W → Prop} {f : α → β} (hf : ∀ a writes, Wrote a writes → Wrote' (f a) writes)
    {past : History I} {o : Except I.Reason α} (h : Settled action done Wrote past o) :
    Settled action done Wrote' past (o.map f) := by
  cases o with
  | ok a =>
    obtain ⟨writes, ha, hview⟩ := h
    exact ⟨writes, hf a writes ha, hview⟩
  | error e => exact h

/-- A failed statement commits nothing. -/
theorem Session.commits_false (s : Session W) (t : Statement W) : s.commits t false = none := by
  cases t <;> rfl

/-- A call that the view of its program allows and that commits only transactions of a kind. -/
def Keeps (action : Event I → Action κ W) (P : List W → Prop) (past : History I) (c : I.Call) :
    Prop :=
  IsDisciplined action past c ∧ ∀ r : I.Settled c,
    ∀ writes ∈ (viewAfter action (past ++ [⟨c, r⟩])).done,
      writes ∈ (viewAfter action past).done ∨ P writes

/-- Transactions that keep a rule keep a weaker one. -/
theorem Keeps.mono {P P' : List W → Prop} {past : History I} {c : I.Call}
    (h : Keeps action P past c) (hP : ∀ writes, P writes → P' writes) : Keeps action P' past c :=
  ⟨h.1, fun r writes hwrites => (h.2 r writes hwrites).imp_right (hP writes)⟩

/-- A call that is nothing to the store. -/
theorem keeps_of_none {P : List W → Prop} {past : History I} {c : I.Call}
    (h : ∀ r, action ⟨c, r⟩ = .none) : Keeps action P past c := by
  refine ⟨fun r => ?_, fun r writes hwrites => .inl ?_⟩
  · rw [h r]
    trivial
  · rwa [viewAfter_append, h r] at hwrites

/-- Whatever a program of such calls has committed is of the kind. -/
theorem committed_of_keeps {P : List W → Prop} {Q : History I → Except I.Reason α → Prop}
    {p q : Program I α} {past : History I} (h : Safe (Keeps action P) Q [] p)
    (hsteps : Steps p past q) : ∀ writes ∈ (viewAfter action past).done, P writes := by
  induction hsteps with
  | refl => exact fun _ hwrites => absurd hwrites List.not_mem_nil
  | @tail past c next hprefix r ih =>
    intro writes hwrites
    have hguard := (h.of_steps hprefix).1
    rw [List.nil_append] at hguard
    exact (hguard.2 r writes hwrites).elim (ih writes) id

section Rules

variable {P : List W → Prop} {k : κ} {s : Session W} {done : List (List W)} {past : History I}
  {c : I.Call} {t : Statement W}

/-- A client that is taken is idle. -/
theorem safe_connect (client : I.Answer c → κ)
    (haction : ∀ a, action ⟨c, .ok a⟩ = .connect (client a))
    (herror : ∀ e, action ⟨c, .error e⟩ = .none) (h : viewAfter action past = ⟨none, done⟩) :
    Safe (Keeps action P)
      (fun past r => match r with
        | .ok a => Held action (client a) .idle done past
        | .error _ => viewAfter action past = ⟨none, done⟩)
      past (ask c) := by
  -- the view after the call, by its answer
  have hview (r : I.Settled c) : viewAfter action (past ++ [⟨c, r⟩]) =
      match r with
      | .ok a => ⟨some (client a, .idle), done⟩
      | .error _ => ⟨none, done⟩ := by
    rw [viewAfter_append, h]
    cases r with
    | ok a =>
      rw [haction]
      rfl
    | error e =>
      rw [herror]
      rfl
  refine Safe.ask ⟨fun r => ?_, fun r writes hwrites => .inl ?_⟩ fun r => ?_
  · cases r with
    | ok a =>
      rw [haction, h]
      rfl
    | error e =>
      rw [herror]
      trivial
  · rw [hview] at hwrites
    rw [h]
    cases r with
    | ok a => exact hwrites
    | error e => exact hwrites
  · have := hview r
    cases r with
    | ok a => exact this
    | error e => exact this

/-- A statement on the client that is held. -/
theorem safe_statement (haction : ∀ r, action ⟨c, r⟩ = .statement k t r.isOk)
    (h : Held action k s done past) (hP : ∀ writes, s.commits t true = some writes → P writes) :
    Safe (Keeps action P)
      (fun past r => Held action k (s.next t r.isOk) (done ++ (s.commits t r.isOk).toList) past)
      past (ask c) := by
  have hview (r : I.Settled c) : Held action k (s.next t r.isOk)
      (done ++ (s.commits t r.isOk).toList) (past ++ [⟨c, r⟩]) := by
    unfold Held at h ⊢
    rw [viewAfter_append, haction, h]
    rfl
  refine Safe.ask ⟨fun r => ?_, fun r writes hwrites => ?_⟩ hview
  · rw [haction, show viewAfter action past = _ from h]
    exact ⟨s, rfl⟩
  · rw [show viewAfter action (past ++ [⟨c, r⟩]) = _ from hview r] at hwrites
    rw [show viewAfter action past = _ from h]
    refine (List.mem_append.mp hwrites).imp_right fun hcommitted => ?_
    rw [Option.mem_toList] at hcommitted
    cases hok : r.isOk with
    | true => exact hP writes (hok ▸ hcommitted)
    | false =>
      rw [hok, Session.commits_false] at hcommitted
      cases hcommitted

/-- A statement that does not commit. -/
theorem safe_pending (haction : ∀ r, action ⟨c, r⟩ = .statement k t r.isOk)
    (h : Held action k s done past) (hcommits : s.commits t true = none) :
    Safe (Keeps action P) (fun past r => Held action k (s.next t r.isOk) done past) past
      (ask c) := by
  refine (safe_statement haction h fun _ hwrites => ?_).mono fun past r hr => ?_
  · rw [hcommits] at hwrites
    cases hwrites
  · have hnone : s.commits t r.isOk = none := by
      cases r.isOk with
      | true => exact hcommits
      | false => exact Session.commits_false s t
    rwa [hnone, Option.toList_none, List.append_nil] at hr

/-- A statement that does not commit, and what follows it. -/
theorem safe_statement_bind {f : I.Answer c → Program I α} {Wrote : α → List W → Prop}
    (haction : ∀ r, action ⟨c, r⟩ = .statement k t r.isOk) (h : Held action k s done past)
    (hcommits : s.commits t true = none)
    (hf : ∀ past a, Held action k (s.next t true) done past →
      Safe (Keeps action P) (Ended action k done Wrote) past (f a)) :
    Safe (Keeps action P) (Ended action k done Wrote) past (ask c >>= f) :=
  (safe_pending haction h hcommits).bind hf fun _ _ he => ⟨_, he⟩

/-- The commit of a transaction, with its result. -/
theorem safe_commit {writes : List W} {Wrote : α → List W → Prop} {a : α}
    (haction : ∀ r, action ⟨c, r⟩ = .statement k .commit r.isOk)
    (h : Held action k (.active writes) done past) (hP : P writes) (hwrote : Wrote a writes) :
    Safe (Keeps action P) (Ended action k done Wrote) past (ask c >>= fun _ => pure a) := by
  refine (safe_statement haction h ?_).bind ?_ ?_
  · rintro _ ⟨⟩
    exact hP
  · intro past _ hcommitted
    exact ⟨writes, hwrote, hcommitted⟩
  · intro past e he
    refine ⟨(Session.active writes).next .commit false, ?_⟩
    simpa only [Except.isOk, Except.toBool, Session.commits_false, Option.toList_none,
      List.append_nil] using he

/-- A rollback leaves the client idle, whichever way it settles. -/
theorem safe_rollback (haction : ∀ r, action ⟨c, r⟩ = .statement k .rollback r.isOk)
    (h : Held action k s done past) :
    Safe (Keeps action P) (fun past _ => Held action k .idle done past) past (ask c) :=
  (safe_pending haction h rfl).mono fun past r hr => by
    cases r with
    | ok _ => exact hr
    | error _ => exact hr

/-- A client that is returned. -/
theorem safe_release (haction : ∀ r, action ⟨c, r⟩ = .release k)
    (h : Held action k .idle done past) :
    Safe (Keeps action P) (fun past _ => viewAfter action past = ⟨none, done⟩) past (ask c) := by
  have hview (r : I.Settled c) : viewAfter action (past ++ [⟨c, r⟩]) = ⟨none, done⟩ := by
    rw [viewAfter_append, haction, show viewAfter action past = _ from h]
    rfl
  refine Safe.ask ⟨fun r => ?_, fun r writes hwrites => .inl ?_⟩ hview
  · rw [haction, show viewAfter action past = _ from h]
    rfl
  · rw [hview] at hwrites
    rw [show viewAfter action past = _ from h]
    exact hwrites

end Rules

/-- The rule of a transaction: whatever its statements do, a failure is rolled back and the client
is returned. -/
theorem safe_transaction {P : List W → Prop} {connect : I.Call} (client : I.Answer connect → κ)
    {rollback release : I.Answer connect → I.Call} {body : I.Answer connect → Program I α}
    {translate : I.Reason → I.Reason} {Wrote : α → List W → Prop} {done : List (List W)}
    {past : History I} (hview : viewAfter action past = ⟨none, done⟩)
    (hconnect : ∀ a, action ⟨connect, .ok a⟩ = .connect (client a))
    (hnoClient : ∀ e, action ⟨connect, .error e⟩ = .none)
    (hrollback : ∀ a r, action ⟨rollback a, r⟩ = .statement (client a) .rollback r.isOk)
    (hrelease : ∀ a r, action ⟨release a, r⟩ = .release (client a))
    (hbody : ∀ past a, Held action (client a) .idle done past →
      Safe (Keeps action P) (Ended action (client a) done Wrote) past (body a)) :
    Safe (Keeps action P) (Settled action done Wrote) past
      (ask connect >>= fun a =>
        Program.ensuring
          (tryCatch (body a) fun error => do
            let _ ← (ask (rollback a)).regardless
            throw (translate error))
          (ask (release a)).regardless) := by
  refine (safe_connect client hconnect hnoClient hview).bind ?_ (fun _ _ h => h)
  intro past a hheld
  -- before the client is returned it is idle, whichever way the statements ended
  have hidle : Safe (Keeps action P)
      (fun past o => match o with
        | .ok x => ∃ writes, Wrote x writes ∧ Held action (client a) .idle (done ++ [writes]) past
        | .error _ => Held action (client a) .idle done past) past
      (tryCatch (body a) fun error => do
        let _ ← (ask (rollback a)).regardless
        throw (translate error)) := by
    refine (hbody past a hheld).tryCatch (fun _ _ h => h) ?_
    rintro past e ⟨s, hs⟩
    refine (Safe.regardless (safe_rollback (hrollback a) hs)).bind ?_ ?_
    · intro past _ h
      exact h.1
    · rintro past _ ⟨-, h⟩
      cases h
  refine hidle.ensuring ?_
  intro past o ho
  cases o with
  | ok x =>
    obtain ⟨writes, hwrote, hheld⟩ := ho
    refine (Safe.regardless (safe_release (hrelease a) hheld)).mono ?_
    rintro past u ⟨hview, rfl⟩
    exact ⟨writes, hwrote, hview⟩
  | error e =>
    refine (Safe.regardless (safe_release (hrelease a) ho)).mono ?_
    rintro past u ⟨hview, rfl⟩
    exact hview

section System

variable {ι : Type} [DecidableEq ι] [DecidableEq κ] {admits : List W → List W → Prop}
  {P : ι → List W → Prop} {Q : ι → History I → Except I.Reason α → Prop}
  {sys : System I ι (Store ι κ W) α} {cfg : Config I ι (Store ι κ W) α}

/-- The programs of a system have right views of the store they share. -/
theorem views_of_keeps
    (hanswers : ∀ s i ev s', sys.Answers s i ev s' → s.Step admits i (action ev) s')
    (hsafe : ∀ i, Safe (Keeps action (P i)) (Q i) [] (sys.program i))
    (h : sys.Reachable .empty cfg) :
    Views admits cfg.state fun i => viewAfter action (cfg.past i) :=
  views_of_reachable hanswers (fun i => (hsafe i).weaken fun _ _ h => h.1) h

/-- Every transaction that has been committed is of the kind of its program. -/
theorem committed_of_reachable
    (hanswers : ∀ s i ev s', sys.Answers s i ev s' → s.Step admits i (action ev) s')
    (hsafe : ∀ i, Safe (Keeps action (P i)) (Q i) [] (sys.program i))
    (h : sys.Reachable .empty cfg) : ∀ tx ∈ cfg.state.committed, P tx.1 tx.2 := by
  intro tx htx
  have hdone := (views_of_keeps hanswers hsafe h).done tx.1
  refine committed_of_keeps (hsafe tx.1) (h.steps tx.1) tx.2 ?_
  rw [hdone]
  exact List.mem_map_of_mem (List.mem_filter.mpr ⟨htx, decide_eq_true rfl⟩)

end System

end Stores
