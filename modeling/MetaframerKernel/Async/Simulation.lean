import MetaframerKernel.Async.Program

/-!
# Simulation of programs

A program that makes more calls than another, and otherwise does what the other one does: the calls
the two share are the same and in the same order, and whatever the extra ones are answered with
leaves the rest of the program as it is. Shared calls need not be answered with the same value, but
with values that are alike.

## Main definitions

* `View`: the calls that are shared, what the others are answered with and which answers are alike;
* `Simulates`: the second program does what the first one does;
* `Matches`: two outsides that answer alike.

## Main results

* `Simulates.andThen`, `Simulates.bind`, `Simulates.self`: the rules for composed programs;
* `Simulates.run`: runs against outsides that answer alike end alike, after shared calls alike.
-/

namespace Async

open Program

/-! ## Outcomes alike -/

/-- Both fulfilled, with related values, or both rejected, for the same reason. -/
def Alike {ε α α' : Type} (V : α → α' → Prop) : Except ε α → Except ε α' → Prop
  | .ok a, .ok a' => V a a'
  | .error e, .error e' => e = e'
  | _, _ => False

section Alike

variable {ε α α' β β' : Type} {V V' : α → α' → Prop} {W : β → β' → Prop}

/-- An outcome is like itself. -/
theorem Alike.refl (o : Except ε α) : Alike Eq o o := by
  cases o with
  | ok a => exact rfl
  | error e => exact rfl

/-- Outcomes that are alike in their values are equal. -/
theorem Alike.eq {o o' : Except ε α} (h : Alike Eq o o') : o = o' := by
  cases o with
  | ok a =>
    cases o' with
    | ok a' => exact congrArg Except.ok h
    | error e => exact h.elim
  | error e =>
    cases o' with
    | ok a' => exact h.elim
    | error e' => exact congrArg Except.error h

/-- Outcomes that are alike are so up to a wider relation. -/
theorem Alike.mono {o : Except ε α} {o' : Except ε α'} (h : Alike V o o')
    (hV : ∀ a a', o = .ok a → o' = .ok a' → V a a' → V' a a') : Alike V' o o' := by
  cases o with
  | ok a =>
    cases o' with
    | ok a' => exact hV a a' rfl rfl h
    | error e => exact h.elim
  | error e =>
    cases o' with
    | ok a' => exact h.elim
    | error e' => exact h

/-- Checks that follow alike outcomes end alike. -/
theorem Alike.bind {o : Except ε α} {o' : Except ε α'} (h : Alike V o o')
    {f : α → Except ε β} {f' : α' → Except ε β'}
    (hf : ∀ a a', o = .ok a → o' = .ok a' → V a a' → Alike W (f a) (f' a')) :
    Alike W (o >>= f) (o' >>= f') := by
  cases o with
  | ok a =>
    cases o' with
    | ok a' => exact hf a a' rfl rfl h
    | error e => exact h.elim
  | error e =>
    cases o' with
    | ok a' => exact h.elim
    | error e' => exact h

end Alike

/-! ## The simulation -/

variable {I : Interface} {α α' β β' σ τ : Type}

/-- How two programs are compared. -/
structure View (I : Interface) where
  /-- The calls both programs make. -/
  shared : I.Call → Bool
  /-- What a call that only the second program makes is answered with. -/
  valid : (c : I.Call) → I.Settled c → Prop
  /-- The answers to a shared call that make no difference. -/
  like : (c : I.Call) → I.Settled c → I.Settled c → Prop

/-- The second program makes the calls of the first, and others that make no difference. -/
inductive Simulates (v : View I) (V : α → α' → Prop) : Program I α → Program I α' → Prop
  | settled {o : Except I.Reason α} {o' : Except I.Reason α'} : Alike V o o' →
      Simulates v V (settled o) (settled o')
  | both {c : I.Call} {next : I.Settled c → Program I α} {next' : I.Settled c → Program I α'} :
      v.shared c = true → (∀ r r', v.like c r r' → Simulates v V (next r) (next' r')) →
      Simulates v V (await c next) (await c next')
  | extra {p : Program I α} {c : I.Call} {next' : I.Settled c → Program I α'} :
      v.shared c = false → (∀ r, v.valid c r → Simulates v V p (next' r)) →
      Simulates v V p (await c next')

section Rules

variable {v : View I} {V : α → α' → Prop} {W : β → β' → Prop}

/-- The rule of composition. -/
theorem Simulates.andThen {p : Program I α} {p' : Program I α'} (h : Simulates v V p p')
    {f : Except I.Reason α → Program I β} {f' : Except I.Reason α' → Program I β'}
    (hf : ∀ o o', Alike V o o' → Simulates v W (f o) (f' o')) :
    Simulates v W (p.andThen f) (p'.andThen f') := by
  induction h with
  | settled ho => exact hf _ _ ho
  | both hc _ ih => exact .both hc ih
  | extra hc _ ih => exact .extra hc ih

/-- Binds are simulated program by program. -/
theorem Simulates.bind {p : Program I α} {p' : Program I α'} (h : Simulates v V p p')
    {f : α → Program I β} {f' : α' → Program I β'}
    (hf : ∀ a a', V a a' → Simulates v W (f a) (f' a')) :
    Simulates v W (p >>= f) (p' >>= f') := by
  refine h.andThen fun o o' ho => ?_
  cases o with
  | ok a =>
    cases o' with
    | ok a' => exact hf a a' ho
    | error e => exact ho.elim
  | error e =>
    cases o' with
    | ok a' => exact ho.elim
    | error e' => exact .settled ho

/-- Handlers are simulated with what they do about a rejection. -/
theorem Simulates.tryCatch {p : Program I α} {p' : Program I α'} (h : Simulates v V p p')
    {f : I.Reason → Program I α} {f' : I.Reason → Program I α'}
    (hf : ∀ e, Simulates v V (f e) (f' e)) :
    Simulates v V (MonadExcept.tryCatch p f) (MonadExcept.tryCatch p' f') := by
  refine h.andThen fun o o' ho => ?_
  cases o with
  | ok a =>
    cases o' with
    | ok a' => exact .settled ho
    | error e => exact ho.elim
  | error e =>
    cases o' with
    | ok a' => exact ho.elim
    | error e' =>
      obtain rfl : e = e' := ho
      exact hf e

/-- A synchronous step that throws alike in both programs, or returns. -/
theorem Simulates.syncBind {r : Except I.Reason α} {r' : Except I.Reason α'} (h : Alike V r r')
    {f : α → Program I β} {f' : α' → Program I β'}
    (hf : ∀ a a', r = .ok a → r' = .ok a' → V a a' → Simulates v W (f a) (f' a')) :
    Simulates v W (sync r >>= f) (sync r' >>= f') := by
  cases r with
  | ok a =>
    cases r' with
    | ok a' => exact hf a a' rfl rfl h
    | error e => exact h.elim
  | error e =>
    cases r' with
    | ok a' => exact h.elim
    | error e' => exact .settled h

/-- A shared call whose answers are alike. -/
theorem Simulates.ask {c : I.Call} {V : I.Answer c → I.Answer c → Prop} (hc : v.shared c = true)
    (h : ∀ r r', v.like c r r' → Alike V r r') :
    Simulates v V (Program.ask c) (Program.ask c) :=
  .both hc fun r r' hr => .settled (h r r' hr)

/-- A call of the second program only, which is fulfilled. -/
theorem Simulates.extraBind {c : I.Call} {p : Program I β} {f' : I.Answer c → Program I β'}
    (hc : v.shared c = false)
    (hf : ∀ r, v.valid c r → ∃ a, r = .ok a ∧ Simulates v W p (f' a)) :
    Simulates v W p (Program.ask c >>= f') := by
  refine .extra hc fun r hr => ?_
  obtain ⟨a, rfl, h⟩ := hf r hr
  exact h

/-- A program of shared calls with equal answers simulates itself. -/
theorem Simulates.self {p : Program I α}
    (h : Calls (fun c => v.shared c = true ∧ ∀ r r', v.like c r r' → r = r') p) :
    Simulates v Eq p p := by
  induction p with
  | settled o => exact .settled (Alike.refl o)
  | await c next ih =>
    refine .both h.1.1 fun r r' hr => ?_
    obtain rfl := h.1.2 r r' hr
    exact ih r (h.2 r)

end Rules

/-! ## Runs -/

/-- The same call, with answers that are alike. -/
inductive View.LikeEvent (v : View I) : Event I → Event I → Prop
  | mk {c : I.Call} {r r' : I.Settled c} : v.like c r r' → v.LikeEvent ⟨c, r⟩ ⟨c, r'⟩

/-- Outsides that answer shared calls alike, in states that are related before and after. -/
structure Matches (v : View I) (outside : Outside I σ) (outside' : Outside I τ)
    (R : σ → τ → Prop) : Prop where
  both : ∀ c s t, v.shared c = true → R s t →
    v.like c (outside c s).1 (outside' c t).1 ∧ R (outside c s).2 (outside' c t).2
  extra : ∀ c s t, v.shared c = false → R s t →
    v.valid c (outside' c t).1 ∧ R s (outside' c t).2

/-- Runs against outsides that answer alike make the same shared calls and end alike. -/
theorem Simulates.run {v : View I} {V : α → α' → Prop} {p : Program I α} {p' : Program I α'}
    (h : Simulates v V p p') {outside : Outside I σ} {outside' : Outside I τ} {R : σ → τ → Prop}
    (hm : Matches v outside outside' R) {s : σ} {t : τ} (hst : R s t) :
    Alike V (run outside p s).outcome (run outside' p' t).outcome ∧
      List.Forall₂ v.LikeEvent (run outside p s).history
        ((run outside' p' t).history.filter fun ev => v.shared ev.1) ∧
      R (run outside p s).state (run outside' p' t).state := by
  induction h generalizing s t with
  | settled ho => exact ⟨ho, .nil, hst⟩
  | @both c next next' hc _ ih =>
    obtain ⟨hlike, hR⟩ := hm.both c s t hc hst
    obtain ⟨houtcome, hhistory, hstate⟩ := ih _ _ hlike hR
    refine ⟨houtcome, ?_, hstate⟩
    simp only [Async.run, List.filter_cons, hc, if_true]
    exact .cons ⟨hlike⟩ hhistory
  | @extra p c next' hc _ ih =>
    -- the extra call is not among the shared ones, and the first outside has not moved
    obtain ⟨hvalid, hR⟩ := hm.extra c s t hc hst
    obtain ⟨houtcome, hhistory, hstate⟩ := ih _ hvalid hR
    refine ⟨houtcome, ?_, hstate⟩
    simp only [Async.run, List.filter_cons, hc, Bool.false_eq_true, if_false]
    exact hhistory

end Async
