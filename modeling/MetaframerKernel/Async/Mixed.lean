import MetaframerKernel.Async.System

/-!
# Concurrent programs of different interfaces

Programs that run next to each other against one outside, each with calls and a result of its own.
What a `System` is for programs of one interface this is for a family of them.

## Main definitions

* `Mixed`: the programs and how the outside may answer each;
* `Mixed.Reachable`: the configurations any interleaving can reach;
* `Mixed.only`: the same programs, where the outside takes some of its steps only.

## Main results

* `Mixed.Reachable.safe`: a program that is safe on its own is safe among the others;
* `Mixed.Reachable.invariant`: what each guarded call preserves holds throughout.
-/

namespace Async

open Program

variable {ι σ : Type}

/-- Programs next to each other, and the answers the outside may give to each in a state, with the
state they lead to. -/
structure Mixed (ι σ : Type) where
  interface : ι → Interface
  result : ι → Type
  program : ∀ i, Program (interface i) (result i)
  Answers : σ → (i : ι) → Event (interface i) → σ → Prop

/-- The state of the outside, and what each program has done and has left to do. -/
structure MixedConfig (I : ι → Interface) (α : ι → Type) (σ : Type) where
  state : σ
  left : ∀ i, Program (I i) (α i)
  past : ∀ i, History (I i)

namespace Mixed

/-- The configurations of the programs. -/
abbrev Config (sys : Mixed ι σ) : Type := MixedConfig sys.interface sys.result σ

/-- The outside takes only the steps of a kind. -/
@[reducible]
def only (sys : Mixed ι σ) (Kind : σ → (i : ι) → Event (sys.interface i) → Prop) : Mixed ι σ :=
  { sys with Answers := fun s i ev s' => sys.Answers s i ev s' ∧ Kind s i ev }

variable [DecidableEq ι]

/-- One call of one program. -/
inductive Step (sys : Mixed ι σ) : sys.Config → sys.Config → Prop
  | call {cfg : sys.Config} {i : ι} {c : (sys.interface i).Call}
      {next : (sys.interface i).Settled c → Program (sys.interface i) (sys.result i)}
      {r : (sys.interface i).Settled c} {state' : σ} : cfg.left i = await c next →
      sys.Answers cfg.state i ⟨c, r⟩ state' →
      Step sys cfg
        ⟨state', Function.update cfg.left i (next r),
          Function.update cfg.past i (cfg.past i ++ [⟨c, r⟩])⟩

/-- What an interleaving of the programs can reach from a state of the outside. -/
inductive Reachable (sys : Mixed ι σ) (start : σ) : sys.Config → Prop
  | init : Reachable sys start ⟨start, sys.program, fun _ => []⟩
  | step {cfg cfg' : sys.Config} : Reachable sys start cfg → sys.Step cfg cfg' →
      Reachable sys start cfg'

variable {sys : Mixed ι σ} {start : σ} {cfg : sys.Config}

/-- What each program has done is a run of it. -/
theorem Reachable.steps (h : sys.Reachable start cfg) (i : ι) :
    Steps (sys.program i) (cfg.past i) (cfg.left i) := by
  induction h with
  | init => exact .refl _
  | @step cfg _ _ hstep ih =>
    obtain @⟨j, c, next, r, state', hleft, -⟩ := hstep
    by_cases hij : i = j
    · subst hij
      simp only [Function.update_self]
      rw [hleft] at ih
      exact .tail ih r
    · simp only [Function.update_of_ne hij]
      exact ih

/-- A program that is safe on its own is safe among the others. -/
theorem Reachable.safe (h : sys.Reachable start cfg) {i : ι}
    {G : History (sys.interface i) → (sys.interface i).Call → Prop}
    {Q : History (sys.interface i) → Except (sys.interface i).Reason (sys.result i) → Prop}
    (hsafe : Safe G Q [] (sys.program i)) : Safe G Q (cfg.past i) (cfg.left i) := by
  have hsteps := hsafe.of_steps (h.steps i)
  rwa [List.nil_append] at hsteps

/-- The rule of invariants: each call that meets the guard of its program preserves them. -/
theorem Reachable.invariant {P : σ → (∀ i, History (sys.interface i)) → Prop}
    {G : ∀ i, History (sys.interface i) → (sys.interface i).Call → Prop}
    {Q : ∀ i, History (sys.interface i) → Except (sys.interface i).Reason (sys.result i) → Prop}
    (hsafe : ∀ i, Safe (G i) (Q i) [] (sys.program i)) (hinit : P start fun _ => [])
    (hstep : ∀ s past i c (r : (sys.interface i).Settled c) s', P s past → G i (past i) c →
      sys.Answers s i ⟨c, r⟩ s' → P s' (Function.update past i (past i ++ [⟨c, r⟩])))
    (h : sys.Reachable start cfg) : P cfg.state cfg.past := by
  induction h with
  | init => exact hinit
  | @step cfg _ hreach hcall ih =>
    obtain @⟨i, c, next, r, state', hleft, hanswers⟩ := hcall
    have hguard := hreach.safe (hsafe i)
    rw [hleft] at hguard
    exact hstep _ _ i c r state' ih hguard.1 hanswers

end Mixed

end Async
