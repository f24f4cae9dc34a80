import MetaframerKernel.Async.Program

/-!
# Concurrent programs

Any number of programs that run next to each other against one outside: a step is one call of one
program, in any order, with any answer the outside may give in its state.

## Main definitions

* `System`: the programs and how the outside may answer;
* `Reachable`: the configurations any interleaving can reach;
* `Runs`: what one program can come to while the others wait.

## Main results

* `Reachable.steps`: what each program has done is a run of it on its own;
* `Reachable.invariant`: a property of the state and of what every program has done that each
  guarded call preserves holds throughout.
-/

namespace Async

open Program

variable {I : Interface} {ι σ α : Type}

/-- Programs next to each other, and the answers the outside may give in a state, with the state
they lead to. -/
structure System (I : Interface) (ι σ α : Type) where
  program : ι → Program I α
  Answers : σ → ι → Event I → σ → Prop

/-- The state of the outside, and what each program has done and has left to do. -/
structure Config (I : Interface) (ι σ α : Type) where
  state : σ
  left : ι → Program I α
  past : ι → History I

variable [DecidableEq ι]

/-- One call of one program. -/
inductive System.Step (sys : System I ι σ α) : Config I ι σ α → Config I ι σ α → Prop
  | call {cfg : Config I ι σ α} {i : ι} {c : I.Call} {next : I.Settled c → Program I α}
      {r : I.Settled c} {state' : σ} : cfg.left i = await c next →
      sys.Answers cfg.state i ⟨c, r⟩ state' →
      Step sys cfg
        ⟨state', Function.update cfg.left i (next r),
          Function.update cfg.past i (cfg.past i ++ [⟨c, r⟩])⟩

/-- What an interleaving of the programs can reach from a state of the outside. -/
inductive System.Reachable (sys : System I ι σ α) (start : σ) : Config I ι σ α → Prop
  | init : Reachable sys start ⟨start, sys.program, fun _ => []⟩
  | step {cfg cfg' : Config I ι σ α} : Reachable sys start cfg → sys.Step cfg cfg' →
      Reachable sys start cfg'

/-- A program can come to an outcome, with answers the outside may give. -/
inductive Runs (Answers : σ → Event I → σ → Prop) : σ → Program I α → σ → Except I.Reason α → Prop
  | settled (s : σ) (o : Except I.Reason α) : Runs Answers s (settled o) s o
  | await {s s' s'' : σ} {c : I.Call} {next : I.Settled c → Program I α} {o : Except I.Reason α}
      (r : I.Settled c) : Answers s ⟨c, r⟩ s' → Runs Answers s' (next r) s'' o →
      Runs Answers s (await c next) s'' o

/-- The configuration after one program has run to its end against an outside. -/
def Config.ran (cfg : Config I ι σ α) (outside : Outside I σ) (i : ι) : Config I ι σ α where
  state := (Async.run outside (cfg.left i) cfg.state).state
  left := Function.update cfg.left i (settled (Async.run outside (cfg.left i) cfg.state).outcome)
  past := Function.update cfg.past i
    (cfg.past i ++ (Async.run outside (cfg.left i) cfg.state).history)

namespace Runs

variable {β : Type} {Answers : σ → Event I → σ → Prop} {s s' s'' : σ}

/-- The rule of composition. -/
theorem andThen {p : Program I α} {f : Except I.Reason α → Program I β} {o : Except I.Reason α}
    {o' : Except I.Reason β} (h : Runs Answers s p s' o) (hf : Runs Answers s' (f o) s'' o') :
    Runs Answers s (p.andThen f) s'' o' := by
  induction h with
  | settled s o => exact hf
  | await r hanswers _ ih => exact .await r hanswers (ih hf)

/-- A bind runs its programs one after the other. -/
theorem bind {p : Program I α} {f : α → Program I β} {a : α} {o : Except I.Reason β}
    (h : Runs Answers s p s' (.ok a)) (hf : Runs Answers s' (f a) s'' o) :
    Runs Answers s (p >>= f) s'' o :=
  h.andThen hf

/-- A function of the value runs its program. -/
theorem map {p : Program I α} {a : α} (h : Runs Answers s p s' (.ok a)) (f : α → β) :
    Runs Answers s (f <$> p) s' (.ok (f a)) :=
  h.bind (.settled _ _)

/-- The rule of a single call. -/
theorem ask {c : I.Call} (r : I.Settled c) (h : Answers s ⟨c, r⟩ s') :
    Runs Answers s (Program.ask c) s' r :=
  .await r h (.settled _ _)

/-- The rule of a synchronous step. -/
theorem sync {r : Except I.Reason α} {a : α} (h : r = .ok a) :
    Runs Answers s (Program.sync r) s (.ok a) :=
  h ▸ .settled s r

end Runs

namespace System

variable {sys : System I ι σ α} {start : σ} {cfg : Config I ι σ α}

/-- A program may come to its end while the others wait. -/
theorem Reachable.runs {i : ι} {s : σ} {o : Except I.Reason α}
    (hruns : Runs (fun s => sys.Answers s i) cfg.state (cfg.left i) s o)
    (h : sys.Reachable start cfg) : ∃ cfg', sys.Reachable start cfg' ∧ cfg'.state = s ∧
      cfg'.left = Function.update cfg.left i (settled o) := by
  generalize hstate : cfg.state = before, hleft : cfg.left i = p at hruns
  induction hruns generalizing cfg with
  | settled s o => exact ⟨cfg, h, hstate, by rw [← hleft, Function.update_eq_self]⟩
  | await r hanswers _ ih =>
    subst hstate
    obtain ⟨cfg', h', hstate', hleft'⟩ :=
      ih (h.step (.call hleft hanswers)) rfl (Function.update_self ..)
    exact ⟨cfg', h', hstate', by rw [hleft', Function.update_idem]⟩

/-- A program may run to its end against an outside whose answers are allowed. -/
theorem Reachable.ran {outside : Outside I σ} {i : ι}
    (hanswers : ∀ c s, sys.Answers s i ⟨c, (outside c s).1⟩ (outside c s).2)
    (h : sys.Reachable start cfg) : sys.Reachable start (cfg.ran outside i) := by
  -- by what the program has left to do
  generalize hp : cfg.left i = p
  induction p generalizing cfg with
  | settled o =>
    have hsame : cfg.ran outside i = cfg := by
      simp only [Config.ran, hp, run_settled, List.append_nil]
      rw [← hp, Function.update_eq_self, Function.update_eq_self]
    rw [hsame]
    exact h
  | await c next ih =>
    have hnext := ih _ (h.step (.call hp (hanswers c cfg.state)))
      (Function.update_self ..)
    have hsame : cfg.ran outside i = Config.ran ⟨(outside c cfg.state).2,
        Function.update cfg.left i (next (outside c cfg.state).1),
        Function.update cfg.past i (cfg.past i ++ [⟨c, (outside c cfg.state).1⟩])⟩ outside i := by
      simp only [Config.ran, hp, Function.update_self, Function.update_idem, Async.run,
        List.append_assoc, List.singleton_append]
    rw [hsame]
    exact hnext

/-- What each program has done is a run of it. -/
theorem Reachable.steps (h : sys.Reachable start cfg) (i : ι) :
    Steps (sys.program i) (cfg.past i) (cfg.left i) := by
  induction h with
  | init => exact .refl _
  | @step cfg _ _ hstep ih =>
    obtain @⟨j, c, next, r, state', hleft, -⟩ := hstep
    by_cases hij : i = j
    · subst hij
      simp only [Function.update_self]
      rw [hleft] at ih
      exact .tail ih r
    · simp only [Function.update_of_ne hij]
      exact ih

/-- A program that is safe on its own is safe among the others. -/
theorem Reachable.safe (h : sys.Reachable start cfg) {i : ι} {G : History I → I.Call → Prop}
    {Q : History I → Except I.Reason α → Prop} (hsafe : Safe G Q [] (sys.program i)) :
    Safe G Q (cfg.past i) (cfg.left i) := by
  have hsteps := hsafe.of_steps (h.steps i)
  rwa [List.nil_append] at hsteps

/-- The rule of invariants: each call that meets the guard of its program preserves them. -/
theorem Reachable.invariant {P : σ → (ι → History I) → Prop}
    {G : ι → History I → I.Call → Prop} {Q : ι → History I → Except I.Reason α → Prop}
    (hsafe : ∀ i, Safe (G i) (Q i) [] (sys.program i)) (hinit : P start fun _ => [])
    (hstep : ∀ s past i c (r : I.Settled c) s', P s past → G i (past i) c →
      sys.Answers s i ⟨c, r⟩ s' → P s' (Function.update past i (past i ++ [⟨c, r⟩])))
    (h : sys.Reachable start cfg) : P cfg.state cfg.past := by
  induction h with
  | init => exact hinit
  | @step cfg _ hreach hcall ih =>
    obtain @⟨i, c, next, r, state', hleft, hanswers⟩ := hcall
    have hguard := hreach.safe (hsafe i)
    rw [hleft] at hguard
    exact hstep _ _ i c r state' ih hguard.1 hanswers

end System

end Async
