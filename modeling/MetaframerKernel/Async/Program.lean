import Mathlib.Order.Basic
import Mathlib.Tactic.Common

/-!
# Asynchronous programs

A program that awaits calls to the outside and goes on with what each call settles to: a value it
is fulfilled with or a reason it is rejected for. What the outside does is left open, so a property
of a program is a property of its runs under every way of answering.

## Main definitions

* `Program`: the programs, a monad with `throw` and `tryCatch`;
* `Steps`: the runs of a program, each with the history of its calls and answers;
* `run`: the run against an outside that answers from a state of its own;
* `Safe`: a guard holds before every call, and a postcondition of every outcome;
* `Calls`: what holds of every call a program can make;
* `Rejects`: what a program is rejected for, by what its calls are.

## Main results

* `Safe.andThen`, `Safe.bind`, `Safe.ask`: rules for composed programs;
* `Safe.of_steps`: a safe program stays safe along its runs;
* `run_andThen`, `steps_run`: the run of a composed program, and that it is a run.
-/

namespace Async

/-- What a program can call, what each call is fulfilled with and what it is rejected for. -/
structure Interface where
  Call : Type
  Answer : Call → Type
  Reason : Type

/-- What a call settles to. -/
abbrev Interface.Settled (I : Interface) (c : I.Call) : Type := Except I.Reason (I.Answer c)

/-- A program: settled, or awaiting a call. -/
inductive Program (I : Interface) (α : Type) where
  | settled (outcome : Except I.Reason α)
  | await (c : I.Call) (next : I.Settled c → Program I α)

/-- A call and what it settled to. -/
abbrev Event (I : Interface) : Type := (c : I.Call) × I.Settled c

/-- The calls of a run and their answers, in order. -/
abbrev History (I : Interface) : Type := List (Event I)

variable {I : Interface} {α β γ σ : Type}

/-- A fulfilled call is not a rejected one. -/
theorem Event.ok_ne_error {c c' : I.Call} (a : I.Answer c) (e : I.Reason) :
    (⟨c, .ok a⟩ : Event I) ≠ ⟨c', .error e⟩ := by
  rintro ⟨⟩

namespace Program

/-! ## Composition -/

/-- Go on with the outcome of a program, whichever way it settles. -/
def andThen : Program I α → (Except I.Reason α → Program I β) → Program I β
  | settled o, f => f o
  | await c next, f => await c fun r => (next r).andThen f

/-- Go on with the value of a program; a rejection is passed on. -/
def onFulfilled (f : α → Program I β) : Except I.Reason α → Program I β
  | .ok a => f a
  | .error e => settled (.error e)

/-- Go on with the reason a program was rejected for; a value is passed on. -/
def onRejected (f : I.Reason → Program I α) : Except I.Reason α → Program I α
  | .ok a => settled (.ok a)
  | .error e => f e

instance : Monad (Program I) where
  pure a := settled (.ok a)
  bind p f := p.andThen (onFulfilled f)

instance : MonadExcept I.Reason (Program I) where
  throw e := settled (.error e)
  tryCatch p f := p.andThen (onRejected f)

/-- `finally`: run the clean-up whichever way the program settles, and keep the outcome unless the
clean-up is rejected. -/
def ensuring (p : Program I α) (cleanup : Program I Unit) : Program I α :=
  p.andThen fun o => cleanup.andThen (onFulfilled fun _ => settled o)

/-- Go on whichever way a program settles. -/
def regardless (p : Program I α) : Program I Unit := p.andThen fun _ => settled (.ok ())

/-- `await c`. -/
def ask (c : I.Call) : Program I (I.Answer c) := await c settled

/-- The outcome of a program that has settled. -/
def outcome? : Program I α → Option (Except I.Reason α)
  | settled o => some o
  | await _ _ => none

/-- The call a program awaits. -/
def pending : Program I α → List I.Call
  | settled _ => []
  | await c _ => [c]

/-- A synchronous step, which throws or returns. -/
def sync (r : Except I.Reason α) : Program I α := settled r

/-- `pure` is a program that is settled with its value. -/
theorem pure_eq (a : α) : (pure a : Program I α) = settled (.ok a) := rfl

/-- A bind goes on when its first program is fulfilled. -/
theorem bind_eq (p : Program I α) (f : α → Program I β) :
    (p >>= f) = p.andThen (onFulfilled f) := rfl

/-- A handler goes on when its program is rejected. -/
theorem tryCatch_eq (p : Program I α) (f : I.Reason → Program I α) :
    tryCatch p f = p.andThen (onRejected f) := rfl

/-- Continuations compose. -/
theorem andThen_assoc (p : Program I α) (f : Except I.Reason α → Program I β)
    (g : Except I.Reason β → Program I γ) :
    (p.andThen f).andThen g = p.andThen fun o => (f o).andThen g := by
  induction p with
  | settled o => rfl
  | await c next ih => exact congrArg (await c) (funext ih)

/-- Going on with what a program was settled with is the program. -/
theorem andThen_settled (p : Program I α) : p.andThen settled = p := by
  induction p with
  | settled o => rfl
  | await c next ih => exact congrArg (await c) (funext ih)

/-- Going on with the value alone is settling with it. -/
theorem onFulfilled_pure : onFulfilled (pure : α → Program I α) = settled := by
  funext o
  cases o <;> rfl

instance : LawfulMonad (Program I) :=
  LawfulMonad.mk' _
    (fun p => (congrArg p.andThen onFulfilled_pure).trans p.andThen_settled)
    (fun _ _ => rfl)
    (fun p f g => by
      rw [bind_eq, bind_eq, bind_eq, andThen_assoc]
      congr 1
      funext o
      cases o <;> rfl)

end Program

open Program

/-! ## Runs -/

/-- A run: the program it starts from, its history and the program that is left. -/
inductive Steps : Program I α → History I → Program I α → Prop
  | refl (p : Program I α) : Steps p [] p
  | tail {p : Program I α} {past : History I} {c : I.Call} {next : I.Settled c → Program I α} :
      Steps p past (await c next) → (r : I.Settled c) → Steps p (past ++ [⟨c, r⟩]) (next r)

/-- An answer and the steps after it are steps of the program that asked for it. -/
theorem Steps.head {c : I.Call} {next : I.Settled c → Program I α} {r : I.Settled c}
    {past : History I} {q : Program I α} (h : Steps (next r) past q) :
    Steps (await c next) (⟨c, r⟩ :: past) q := by
  induction h with
  | refl => exact .tail (.refl _) r
  | tail _ r ih => exact .tail ih r

/-- Steps follow one another. -/
theorem Steps.trans {p q s : Program I α} {past rest : History I} (h : Steps p past q)
    (h' : Steps q rest s) : Steps p (past ++ rest) s := by
  induction h' with
  | refl => rwa [List.append_nil]
  | tail _ r ih =>
    rw [← List.append_assoc]
    exact .tail ih r

/-- An outside that answers every call from a state. -/
abbrev Outside (I : Interface) (σ : Type) : Type := (c : I.Call) → σ → I.Settled c × σ

/-- How a run ends. -/
structure Run (I : Interface) (σ α : Type) where
  history : History I
  outcome : Except I.Reason α
  state : σ

/-- The run of a program against an outside. -/
def run (outside : Outside I σ) : Program I α → σ → Run I σ α
  | settled o, s => ⟨[], o, s⟩
  | await c next, s =>
      let rest := run outside (next (outside c s).1) (outside c s).2
      ⟨⟨c, (outside c s).1⟩ :: rest.history, rest.outcome, rest.state⟩

/-- A settled program runs to its outcome and asks for nothing. -/
@[simp]
theorem run_settled (outside : Outside I σ) (o : Except I.Reason α) (s : σ) :
    run outside (settled o) s = ⟨[], o, s⟩ := rfl

/-- A program that goes on runs its continuation from the state it has left. -/
theorem run_andThen (outside : Outside I σ) (p : Program I α)
    (f : Except I.Reason α → Program I β) (s : σ) :
    run outside (p.andThen f) s =
      let first := run outside p s
      let rest := run outside (f first.outcome) first.state
      ⟨first.history ++ rest.history, rest.outcome, rest.state⟩ := by
  induction p generalizing s with
  | settled o => rfl
  | await c next ih =>
    simp only [andThen, run, ih, List.cons_append]

/-- A run takes the steps of its history. -/
theorem steps_run (outside : Outside I σ) (p : Program I α) (s : σ) :
    Steps p (run outside p s).history (settled (run outside p s).outcome) := by
  induction p generalizing s with
  | settled o => exact .refl _
  | await c next ih => exact .head (ih _ _)

/-! ## Guards and postconditions -/

section Safe

variable {G : History I → I.Call → Prop} {Q Q' : History I → Except I.Reason α → Prop}
  {R : History I → Except I.Reason β → Prop}

/-- After the given history, every call the program makes meets the guard and every outcome the
postcondition. -/
def Safe (G : History I → I.Call → Prop) (Q : History I → Except I.Reason α → Prop) :
    History I → Program I α → Prop
  | past, settled o => Q past o
  | past, await c next => G past c ∧ ∀ r, Safe G Q (past ++ [⟨c, r⟩]) (next r)

/-- The rule of composition. -/
theorem Safe.andThen {past : History I} {p : Program I α}
    {f : Except I.Reason α → Program I β} (h : Safe G Q past p)
    (hf : ∀ past o, Q past o → Safe G R past (f o)) : Safe G R past (p.andThen f) := by
  induction p generalizing past with
  | settled o => exact hf past o h
  | await c next ih => exact ⟨h.1, fun r => ih r (h.2 r)⟩

/-- The rule of consequence. -/
theorem Safe.mono {past : History I} {p : Program I α} (h : Safe G Q past p)
    (hQ : ∀ past o, Q past o → Q' past o) : Safe G Q' past p := by
  rw [← andThen_settled p]
  exact h.andThen hQ

/-- A bind keeps a guarantee that both of its programs keep. -/
theorem Safe.bind {past : History I} {p : Program I α} {f : α → Program I β}
    (h : Safe G Q past p) (hok : ∀ past a, Q past (.ok a) → Safe G R past (f a))
    (herror : ∀ past e, Q past (.error e) → R past (.error e)) : Safe G R past (p >>= f) := by
  refine h.andThen fun past o ho => ?_
  cases o with
  | ok a => exact hok past a ho
  | error e => exact herror past e ho

/-- A handler keeps a guarantee that its program and what handles the rejection keep. -/
theorem Safe.tryCatch {past : History I} {p : Program I α} {f : I.Reason → Program I α}
    (h : Safe G Q past p) (hok : ∀ past a, Q past (.ok a) → Q' past (.ok a))
    (herror : ∀ past e, Q past (.error e) → Safe G Q' past (f e)) :
    Safe G Q' past (MonadExcept.tryCatch p f) := by
  refine h.andThen fun past o ho => ?_
  cases o with
  | ok a => exact hok past a ho
  | error e => exact herror past e ho

/-- The rule of the clean-up: it is safe after every outcome, and its own rejection stands in for
the outcome. -/
theorem Safe.ensuring {past : History I} {p : Program I α} {cleanup : Program I Unit}
    (h : Safe G Q past p)
    (hcleanup : ∀ past o, Q past o → Safe G
      (fun past u => Q' past (u.bind fun _ => o)) past cleanup) :
    Safe G Q' past (p.ensuring cleanup) := by
  refine h.andThen fun past o ho => (hcleanup past o ho).andThen fun past' u hu => ?_
  cases u with
  | ok _ => exact hu
  | error e => exact hu

/-- What holds however a program ends holds when its end is ignored. -/
theorem Safe.regardless {past : History I} {p : Program I α} {P : History I → Prop}
    (h : Safe G (fun past _ => P past) past p) :
    Safe G (fun past o => P past ∧ o = .ok ()) past p.regardless :=
  h.andThen fun _ _ hpast => ⟨hpast, rfl⟩

/-- The rule of a synchronous step. -/
theorem Safe.syncBind {past : History I} {r : Except I.Reason β} {f : β → Program I α}
    (hok : ∀ b, r = .ok b → Safe G Q past (f b)) (herror : ∀ e, r = .error e → Q past (.error e)) :
    Safe G Q past (sync r >>= f) := by
  cases r with
  | ok b => exact hok b rfl
  | error e => exact herror e rfl

/-- The rule of a single call. -/
theorem Safe.ask {past : History I} {c : I.Call}
    {Q : History I → Except I.Reason (I.Answer c) → Prop} (hG : G past c)
    (hQ : ∀ r, Q (past ++ [⟨c, r⟩]) r) : Safe G Q past (ask c) :=
  ⟨hG, hQ⟩

/-- Two guards and two postconditions at once. -/
theorem Safe.and {G' : History I → I.Call → Prop} {past : History I} {p : Program I α}
    (h : Safe G Q past p) (h' : Safe G' Q' past p) :
    Safe (fun past c => G past c ∧ G' past c) (fun past o => Q past o ∧ Q' past o) past p := by
  induction p generalizing past with
  | settled o => exact ⟨h, h'⟩
  | await c next ih => exact ⟨⟨h.1, h'.1⟩, fun r => ih r (h.2 r) (h'.2 r)⟩

/-- A weaker guard. -/
theorem Safe.weaken {G' : History I → I.Call → Prop} {past : History I} {p : Program I α}
    (h : Safe G Q past p) (hG : ∀ past c, G past c → G' past c) : Safe G' Q past p := by
  induction p generalizing past with
  | settled o => exact h
  | await c next ih => exact ⟨hG past c h.1, fun r => ih r (h.2 r)⟩

/-- The rule of invariants: what guarded calls preserve holds throughout. -/
theorem Safe.keep {W : History I → Prop} {past : History I} {p : Program I α}
    (h : Safe G Q past p) (hW : W past)
    (hstep : ∀ past c r, G past c → W past → W (past ++ [⟨c, r⟩])) :
    Safe (fun past c => G past c ∧ W past) (fun past o => Q past o ∧ W past) past p := by
  induction p generalizing past with
  | settled o => exact ⟨h, hW⟩
  | await c next ih => exact ⟨⟨h.1, hW⟩, fun r => ih r (h.2 r) (hstep past c r h.1 hW)⟩

/-- A program that is safe on its own is safe after other calls. -/
theorem Safe.after {G' : History I → I.Call → Prop} {before past : History I} {p : Program I α}
    (h : Safe G Q past p) (hG : ∀ past c, G past c → G' (before ++ past) c)
    (hQ : ∀ past o, Q past o → Q' (before ++ past) o) : Safe G' Q' (before ++ past) p := by
  induction p generalizing past with
  | settled o => exact hQ past o h
  | await c next ih =>
    refine ⟨hG past c h.1, fun r => ?_⟩
    rw [List.append_assoc]
    exact ih r (h.2 r)

/-- A safe program is safe after every run of it. -/
theorem Safe.of_steps {past rest : History I} {p q : Program I α} (h : Safe G Q past p)
    (hsteps : Steps p rest q) : Safe G Q (past ++ rest) q := by
  induction hsteps with
  | refl => rwa [List.append_nil]
  | tail _ r ih =>
    rw [← List.append_assoc]
    exact ih.2 r

/-- Every call along a run of a safe program met the guard. -/
theorem Safe.guard_of_steps {past rest : History I} {p q : Program I α} (h : Safe G Q past p)
    (hsteps : Steps p rest q) {before after : History I} {ev : Event I}
    (hrest : rest = before ++ ev :: after) : G (past ++ before) ev.1 := by
  induction hsteps generalizing after with
  | refl => simp at hrest
  | @tail earlier c next hsteps r ih =>
    rcases List.eq_nil_or_concat after with rfl | ⟨after, last, rfl⟩
    · obtain ⟨rfl, hev⟩ := List.append_inj' hrest rfl
      obtain rfl := (List.cons.inj hev).1
      exact (h.of_steps hsteps).1
    · rw [List.concat_eq_append, ← List.cons_append, ← List.append_assoc] at hrest
      exact ih (List.append_inj' hrest rfl).1

/-- The rule of a program that is not looked into: whatever it has called is a run of it. -/
theorem Safe.self (before : History I) (p : Program I α) :
    Safe (fun past c => ∃ rest next, past = before ++ rest ∧ Steps p rest (await c next))
      (fun past o => ∃ rest, past = before ++ rest ∧ Steps p rest (settled o)) before p := by
  have hrest (q : Program I α) : ∀ rest, Steps p rest q →
      Safe (fun past c => ∃ rest next, past = before ++ rest ∧ Steps p rest (await c next))
        (fun past o => ∃ rest, past = before ++ rest ∧ Steps p rest (settled o))
        (before ++ rest) q := by
    induction q with
    | settled o => exact fun rest h => ⟨rest, rfl, h⟩
    | await c next ih =>
      intro rest h
      refine ⟨⟨rest, next, rfl, h⟩, fun r => ?_⟩
      rw [List.append_assoc]
      exact ih r _ (.tail h r)
  have hself := hrest p [] (.refl p)
  rwa [List.append_nil] at hself

/-- The outcome of a run of a safe program. -/
theorem Safe.run {past : History I} {p : Program I α} (h : Safe G Q past p)
    (outside : Outside I σ) (s : σ) :
    Q (past ++ (Async.run outside p s).history) (Async.run outside p s).outcome :=
  h.of_steps (steps_run outside p s)

end Safe

/-! ## The calls of a program -/

section Calls

variable {P P' : I.Call → Prop}

/-- Every call the program can make has the property. -/
def Calls (P : I.Call → Prop) : Program I α → Prop
  | settled _ => True
  | await c next => P c ∧ ∀ r, Calls P (next r)

/-- Calls of a kind are calls of a wider kind. -/
theorem Calls.mono {p : Program I α} (h : Calls P p) (hP : ∀ c, P c → P' c) : Calls P' p := by
  induction p with
  | settled o => trivial
  | await c next ih => exact ⟨hP c h.1, fun r => ih r (h.2 r)⟩

/-- A program that goes on makes calls of a kind when both parts do. -/
theorem Calls.andThen {p : Program I α} {f : Except I.Reason α → Program I β} (h : Calls P p)
    (hf : ∀ o, Calls P (f o)) : Calls P (p.andThen f) := by
  induction p with
  | settled o => exact hf o
  | await c next ih => exact ⟨h.1, fun r => ih r (h.2 r)⟩

/-- A bind makes calls of a kind when both of its programs do. -/
theorem Calls.bind {p : Program I α} {f : α → Program I β} (h : Calls P p)
    (hf : ∀ a, Calls P (f a)) : Calls P (p >>= f) :=
  h.andThen fun o => by
    cases o with
    | ok a => exact hf a
    | error e => trivial

/-- A function of the value makes no calls. -/
theorem Calls.map {p : Program I α} (h : Calls P p) (f : α → β) : Calls P (f <$> p) :=
  h.bind fun _ => trivial

/-- A handler makes calls of a kind when its program and what handles the rejection do. -/
theorem Calls.tryCatch {p : Program I α} {f : I.Reason → Program I α} (h : Calls P p)
    (hf : ∀ e, Calls P (f e)) : Calls P (MonadExcept.tryCatch p f) :=
  h.andThen fun o => by
    cases o with
    | ok a => trivial
    | error e => exact hf e

/-- A `finally` makes calls of a kind when its program and the cleanup do. -/
theorem Calls.ensuring {p : Program I α} {cleanup : Program I Unit} (h : Calls P p)
    (hcleanup : Calls P cleanup) : Calls P (p.ensuring cleanup) :=
  h.andThen fun _ => hcleanup.andThen fun u => by cases u <;> trivial

/-- Ignoring how a program ends makes no calls. -/
theorem Calls.regardless {p : Program I α} (h : Calls P p) : Calls P p.regardless :=
  h.andThen fun _ => trivial

/-- A call of the kind is a program that makes calls of the kind. -/
theorem Calls.ask {c : I.Call} (h : P c) : Calls P (ask c) := ⟨h, fun _ => trivial⟩

/-- A call of the kind may come before a program that makes calls of the kind. -/
theorem Calls.askBind {c : I.Call} {f : I.Answer c → Program I α} (h : P c)
    (hf : ∀ a, Calls P (f a)) : Calls P (Program.ask c >>= f) :=
  (Calls.ask h).bind hf

/-- A synchronous step makes no calls. -/
theorem Calls.syncBind {r : Except I.Reason β} {f : β → Program I α} (hf : ∀ a, Calls P (f a)) :
    Calls P (sync r >>= f) :=
  Calls.bind (p := sync r) trivial hf

/-- Every call along a run has the property. -/
theorem Calls.of_steps {p q : Program I α} {past : History I} (h : Calls P p)
    (hsteps : Steps p past q) : (∀ ev ∈ past, P ev.1) ∧ Calls P q := by
  induction hsteps with
  | refl => exact ⟨fun _ hev => absurd hev List.not_mem_nil, h⟩
  | tail _ r ih =>
    obtain ⟨hpast, hcall, hnext⟩ := ih
    refine ⟨fun ev hev => ?_, hnext r⟩
    rcases List.mem_append.mp hev with hev | hev
    · exact hpast ev hev
    · rw [List.mem_singleton.mp hev]
      exact hcall

/-- A program that makes calls of a kind makes no other call at any point of its history. -/
theorem Calls.safe {p : Program I α} (h : Calls P p) (past : History I) :
    Safe (fun _ c => P c) (fun _ _ => True) past p := by
  induction p generalizing past with
  | settled o => trivial
  | await c next ih => exact ⟨h.1, fun r => ih r (h.2 r) _⟩

end Calls

/-! ## The rejections of a program -/

section Rejects

variable {D R R' : I.Reason → Prop}

/-- As long as its calls are rejected for reasons of the first kind only, a program is for reasons
of the second. -/
def Rejects (D R : I.Reason → Prop) : Program I α → Prop
  | settled o => ∀ e, o = .error e → R e
  | await _ next => (∀ a, Rejects D R (next (.ok a))) ∧ ∀ e, D e → Rejects D R (next (.error e))

/-- A program that goes on rejects as its continuation does. -/
theorem Rejects.andThen {p : Program I α} {f : Except I.Reason α → Program I β}
    (h : Rejects D R' p) (hf : ∀ o, (∀ e, o = .error e → R' e) → Rejects D R (f o)) :
    Rejects D R (p.andThen f) := by
  induction p with
  | settled o => exact hf o h
  | await c next ih => exact ⟨fun a => ih _ (h.1 a), fun e he => ih _ (h.2 e he)⟩

/-- A bind rejects with what either of its programs does. -/
theorem Rejects.bind {p : Program I α} {f : α → Program I β} (h : Rejects D R p)
    (hf : ∀ a, Rejects D R (f a)) : Rejects D R (p >>= f) :=
  h.andThen fun o ho => by
    cases o with
    | ok a => exact hf a
    | error e =>
      rintro _ ⟨⟩
      exact ho e rfl

/-- What a handler makes of a rejection is what the whole rejects with. -/
theorem Rejects.tryCatch {p : Program I α} {f : I.Reason → Program I α} (h : Rejects D R' p)
    (hf : ∀ e, R' e → Rejects D R (f e)) : Rejects D R (MonadExcept.tryCatch p f) :=
  h.andThen fun o ho => by
    cases o with
    | ok a => exact nofun
    | error e => exact hf e (ho e rfl)

/-- A program whose end is ignored does not reject. -/
theorem Rejects.regardless {p : Program I α} (h : Rejects D R' p) : Rejects D R p.regardless :=
  h.andThen fun _ _ => nofun

/-- A `finally` rejects with what its program or the cleanup does. -/
theorem Rejects.ensuring {p : Program I α} {cleanup : Program I Unit} (h : Rejects D R p)
    (hcleanup : Rejects D R cleanup) : Rejects D R (p.ensuring cleanup) :=
  h.andThen fun o ho => hcleanup.andThen fun u hu => by
    cases u with
    | ok _ => exact ho
    | error e =>
      rintro _ ⟨⟩
      exact hu e rfl

/-- A call rejects with what it is answered. -/
theorem Rejects.ask {c : I.Call} (h : ∀ e, D e → R e) : Rejects D R (Program.ask c) := by
  refine ⟨fun a => nofun, fun e he => ?_⟩
  rintro _ ⟨⟩
  exact h e he

end Rejects

end Async
