import MetaframerKernel.Async.Program

/-!
# Sequential loops of asynchronous programs

A loop that awaits its body element by element is a `List.foldlM`. It stops at the first element
whose body is rejected, and two loops whose bodies agree step by step agree as a whole.

## Main definitions

* `Agree`: two runs end in related outcomes, having made the same visible calls;
* `FailsFast`: a program that makes no call after a rejected one.

## Main results

* `Agree.bind`, `Agree.foldlM`: agreement of composed programs and of loops;
* `run_foldlM_error`: a rejected loop is a fulfilled loop over the elements before the one that was
  rejected;
* `Safe.foldlM`: the rule of a loop with an invariant over the elements it has been through;
* `FailsFast.run`: every call of a run but the last was fulfilled.
-/

namespace Async

open Program

variable {I : Interface} {α β β' σ ι : Type}

/-! ## The run of a composed program -/

/-- After a fulfilled program a bind runs the second one. -/
theorem run_bind_of_ok {outside : Outside I σ} {p : Program I α} {s : σ} {a : α}
    (h : (run outside p s).outcome = .ok a) (f : α → Program I β) :
    run outside (p >>= f) s =
      let rest := run outside (f a) (run outside p s).state
      ⟨(run outside p s).history ++ rest.history, rest.outcome, rest.state⟩ := by
  rw [bind_eq, run_andThen]
  simp only [h, onFulfilled]

/-- After a rejected program a bind is rejected. -/
theorem run_bind_of_error {outside : Outside I σ} {p : Program I α} {s : σ} {e : I.Reason}
    (h : (run outside p s).outcome = .error e) (f : α → Program I β) :
    run outside (p >>= f) s = ⟨(run outside p s).history, .error e, (run outside p s).state⟩ := by
  rw [bind_eq, run_andThen]
  simp only [h, onFulfilled, run_settled, List.append_nil]

/-- A fulfilled run of a composed program is one of its first part, and one of the rest. -/
theorem run_bind_eq_ok {outside : Outside I σ} {p : Program I α} {f : α → Program I β} {s : σ}
    {b : β} (h : (run outside (p >>= f) s).outcome = .ok b) :
    ∃ a, (run outside p s).outcome = .ok a ∧
      (run outside (f a) (run outside p s).state).outcome = .ok b ∧
      (run outside (p >>= f) s).history = (run outside p s).history ++
        (run outside (f a) (run outside p s).state).history := by
  cases hp : (run outside p s).outcome with
  | error e =>
    rw [run_bind_of_error hp] at h
    cases h
  | ok a =>
    rw [run_bind_of_ok hp] at h ⊢
    exact ⟨a, rfl, h, rfl⟩

/-- A fulfilled run of a program that catches has been fulfilled, or its handler has. -/
theorem run_tryCatch_eq_ok {outside : Outside I σ} {p : Program I α} {f : I.Reason → Program I α}
    {s : σ} {a : α} (h : (run outside (tryCatch p f) s).outcome = .ok a) :
    ((run outside p s).outcome = .ok a ∧
        (run outside (tryCatch p f) s).history = (run outside p s).history) ∨
      ∃ e, (run outside p s).outcome = .error e ∧
        (run outside (f e) (run outside p s).state).outcome = .ok a := by
  rw [tryCatch_eq, run_andThen] at h ⊢
  cases hp : (run outside p s).outcome with
  | error e =>
    simp only [hp, onRejected] at h
    exact .inr ⟨e, rfl, h⟩
  | ok a' =>
    simp only [hp, onRejected] at h ⊢
    exact .inl ⟨h, List.append_nil _⟩

/-- A fulfilled run that starts with a call got an answer to it. -/
theorem run_askBind_eq_ok {outside : Outside I σ} {c : I.Call} {f : I.Answer c → Program I β}
    {s : σ} {b : β} (h : (run outside (ask c >>= f) s).outcome = .ok b) :
    ∃ a s', (run outside (f a) s').outcome = .ok b ∧
      (run outside (ask c >>= f) s).history = ⟨c, .ok a⟩ :: (run outside (f a) s').history := by
  cases hc : (outside c s).1 with
  | error e =>
    have hask : (run outside (ask c) s).outcome = .error e := hc
    rw [run_bind_of_error hask] at h
    cases h
  | ok a =>
    have hask : (run outside (ask c) s).outcome = .ok a := hc
    rw [run_bind_of_ok hask] at h ⊢
    refine ⟨a, _, h, ?_⟩
    simp only [ask, run, hc, List.cons_append, List.nil_append]

/-- The history of a call that is fulfilled. -/
theorem history_ask_of_ok {outside : Outside I σ} {c : I.Call} {s : σ} {a : I.Answer c}
    (h : (run outside (ask c) s).outcome = .ok a) :
    (run outside (ask c) s).history = [⟨c, .ok a⟩] := by
  have hc : (outside c s).1 = .ok a := h
  simp only [ask, run, hc]

/-- Every answer of a run is one of the outside. -/
theorem mem_history_run {outside : Outside I σ} {p : Program I α} {s : σ} {ev : Event I}
    (h : ev ∈ (run outside p s).history) : ∃ s', ev.2 = (outside ev.1 s').1 := by
  induction p generalizing s with
  | settled o => cases h
  | await c next ih =>
    rcases List.mem_cons.mp h with rfl | h
    · exact ⟨s, rfl⟩
    · exact ih _ h

/-- A fulfilled run that starts with a synchronous step got past it. -/
theorem run_syncBind_eq_ok {outside : Outside I σ} {r : Except I.Reason α} {f : α → Program I β}
    {s : σ} {b : β} (h : (run outside (sync r >>= f) s).outcome = .ok b) :
    ∃ a, r = .ok a ∧ run outside (sync r >>= f) s = run outside (f a) s := by
  cases r with
  | error e => cases h
  | ok a => exact ⟨a, rfl, rfl⟩

/-! ## Where a loop stops -/

section Loop

variable {outside : Outside I σ} {f : β → ι → Program I β}

/-- A loop is rejected in the body of one element, after the loop over the elements before. -/
theorem run_foldlM_error {l : List ι} {b : β} {s : σ} {e : I.Reason}
    (h : (run outside (l.foldlM f b) s).outcome = .error e) :
    ∃ done x rest b', l = done ++ x :: rest ∧
      (run outside (done.foldlM f b) s).outcome = .ok b' ∧
      let before := run outside (done.foldlM f b) s
      let last := run outside (f b' x) before.state
      last.outcome = .error e ∧
        (run outside (l.foldlM f b) s).history = before.history ++ last.history := by
  induction l generalizing b s with
  | nil => cases h
  | cons x l ih =>
    rw [List.foldlM_cons] at h ⊢
    cases hx : (run outside (f b x) s).outcome with
    | error e' =>
      rw [run_bind_of_error hx] at h ⊢
      obtain rfl := Except.error.inj h
      exact ⟨[], x, l, b, rfl, rfl, hx, rfl⟩
    | ok b₁ =>
      rw [run_bind_of_ok hx] at h ⊢
      -- the element that fails is further on
      obtain ⟨done, y, rest, b', rfl, hdone, hlast, hhistory⟩ := ih h
      refine ⟨x :: done, y, rest, b', rfl, ?_⟩
      rw [List.foldlM_cons, run_bind_of_ok hx]
      exact ⟨hdone, hlast, by simp only [hhistory, List.append_assoc]⟩

end Loop

section SafeLoop

variable {G : History I → I.Call → Prop} {Q : History I → Except I.Reason β → Prop}

/-- The rule of a loop: what its body keeps, from the elements before one to those up to it. -/
theorem Safe.foldlM {f : β → ι → Program I β} {l : List ι} (Inv : List ι → β → History I → Prop)
    (hbody : ∀ before x after b past, l = before ++ x :: after → Inv before b past →
      Safe G (fun past o => match o with
        | .ok b' => Inv (before ++ [x]) b' past
        | .error e => Q past (.error e)) past (f b x))
    (hQ : ∀ b past, Inv l b past → Q past (.ok b)) {b : β} {past : History I}
    (h : Inv [] b past) : Safe G Q past (l.foldlM f b) := by
  -- over the elements that are left, whichever have gone before
  suffices hsuffix : ∀ (after before : List ι) b past, l = before ++ after → Inv before b past →
      Safe G Q past (after.foldlM f b) from hsuffix l [] b past rfl h
  intro after
  induction after with
  | nil =>
    intro before b past hl h
    rw [List.append_nil] at hl
    exact hQ b past (hl ▸ h)
  | cons x after ih =>
    intro before b past hl h
    rw [List.foldlM_cons]
    refine (hbody before x after b past hl h).bind (fun past b' hb' => ?_) fun _ _ he => he
    exact ih (before ++ [x]) b' past (by rw [hl, List.append_assoc, List.singleton_append]) hb'

end SafeLoop

/-! ## Agreement of runs -/

/-- Two runs end in the same state, having made the same visible calls with the same answers, and
settle alike: to related values, or to the same reason. -/
structure Agree (visible : I.Call → Bool) (V : β → β' → σ → Prop) (r : Run I σ β)
    (r' : Run I σ β') : Prop where
  state : r.state = r'.state
  history : r.history.filter (fun ev => visible ev.1) = r'.history.filter fun ev => visible ev.1
  outcome : (∃ b b', r.outcome = .ok b ∧ r'.outcome = .ok b' ∧ V b b' r.state) ∨
    ∃ e, r.outcome = .error e ∧ r'.outcome = .error e

section Agree

variable {outside : Outside I σ} {visible : I.Call → Bool} {γ γ' : Type}
  {V : β → β' → σ → Prop} {W : γ → γ' → σ → Prop}

/-- A run agrees with itself. -/
theorem Agree.self {r : Run I σ β} {P : β → σ → Prop}
    (h : ∀ b, r.outcome = .ok b → P b r.state) :
    Agree visible (fun b b' s => b = b' ∧ P b s) r r := by
  refine ⟨rfl, rfl, ?_⟩
  cases hr : r.outcome with
  | ok b => exact Or.inl ⟨b, b, rfl, rfl, rfl, h b hr⟩
  | error e => exact Or.inr ⟨e, rfl, rfl⟩

/-- Runs that agree do so up to a wider relation of values. -/
theorem Agree.mono {V' : β → β' → σ → Prop} {r : Run I σ β} {r' : Run I σ β'}
    (h : Agree visible V r r') (hV : ∀ b b' s, V b b' s → V' b b' s) : Agree visible V' r r' := by
  refine ⟨h.state, h.history, h.outcome.imp_left ?_⟩
  rintro ⟨b, b', hb, hb', hbb⟩
  exact ⟨b, b', hb, hb', hV b b' _ hbb⟩

/-- Binds agree when their programs do. -/
theorem Agree.bind {p : Program I β} {p' : Program I β'} {s : σ}
    (h : Agree visible V (run outside p s) (run outside p' s)) {f : β → Program I γ}
    {f' : β' → Program I γ'} (hf : ∀ b b' s, V b b' s →
      Agree visible W (run outside (f b) s) (run outside (f' b') s)) :
    Agree visible W (run outside (p >>= f) s) (run outside (p' >>= f') s) := by
  obtain ⟨b, b', hb, hb', hV⟩ | ⟨e, he, he'⟩ := h.outcome
  · have hrest := hf b b' _ hV
    rw [run_bind_of_ok hb, run_bind_of_ok hb']
    rw [h.state] at hrest ⊢
    exact ⟨hrest.state, by simp only [List.filter_append, h.history, hrest.history], hrest.outcome⟩
  · rw [run_bind_of_error he, run_bind_of_error he']
    exact ⟨h.state, h.history, Or.inr ⟨e, rfl, rfl⟩⟩

/-- The rule of the loop: bodies that agree, from related accumulators, make loops that agree. -/
theorem Agree.foldlM {f : β → ι → Program I β} {g : β' → ι → Program I β'} {l : List ι}
    (hstep : ∀ b b' s, ∀ x ∈ l, V b b' s →
      Agree visible V (run outside (f b x) s) (run outside (g b' x) s))
    {b : β} {b' : β'} {s : σ} (hV : V b b' s) :
    Agree visible V (run outside (l.foldlM f b) s) (run outside (l.foldlM g b') s) := by
  induction l generalizing b b' s with
  | nil => exact ⟨rfl, rfl, Or.inl ⟨b, b', rfl, rfl, hV⟩⟩
  | cons x l ih =>
    rw [List.foldlM_cons, List.foldlM_cons]
    refine (hstep b b' s x List.mem_cons_self hV).bind fun b b' s hV => ?_
    exact ih (fun b b' s y hy => hstep b b' s y (List.mem_cons_of_mem x hy)) hV

end Agree

/-! ## The calls of a loop -/

/-- A loop makes calls of a kind when its body does. -/
theorem Calls.mapM {P : I.Call → Prop} {f : ι → Program I β} (h : ∀ x, Calls P (f x))
    (l : List ι) : Calls P (l.mapM f) := by
  induction l with
  | nil =>
    rw [List.mapM_nil]
    trivial
  | cons x l ih =>
    rw [List.mapM_cons]
    exact (h x).bind fun _ => ih.bind fun _ => trivial

/-! ## Failing fast -/

/-- No call is made after a rejected one, whose reason is the outcome. -/
inductive FailsFast : Program I α → Prop
  | settled (o : Except I.Reason α) : FailsFast (settled o)
  | await (c : I.Call) (next : I.Settled c → Program I α) :
      (∀ e, next (.error e) = Program.settled (.error e)) → (∀ a, FailsFast (next (.ok a))) →
        FailsFast (await c next)

/-- A bind fails fast when its programs do. -/
theorem FailsFast.bind {p : Program I α} {f : α → Program I β} (h : FailsFast p)
    (hf : ∀ a, FailsFast (f a)) : FailsFast (p >>= f) := by
  induction h with
  | settled o =>
    cases o with
    | ok a => exact hf a
    | error e => exact .settled _
  | await c next herror _ ih =>
    refine .await c _ (fun e => ?_) ih
    rw [herror e]
    rfl

/-- A call fails fast. -/
theorem FailsFast.ask (c : I.Call) : FailsFast (ask c : Program I (I.Answer c)) :=
  .await c _ (fun _ => rfl) fun _ => .settled _

/-- A fold fails fast when its body does. -/
theorem FailsFast.foldlM {f : β → ι → Program I β} (h : ∀ b x, FailsFast (f b x)) (l : List ι)
    (b : β) : FailsFast (l.foldlM f b) := by
  induction l generalizing b with
  | nil => exact .settled _
  | cons x l ih =>
    rw [List.foldlM_cons]
    exact (h b x).bind ih

/-- Every call of a history was fulfilled. -/
def AllFulfilled (past : History I) : Prop :=
  ∀ (c : I.Call) (e : I.Reason), (⟨c, .error e⟩ : Event I) ∉ past

/-- One more fulfilled call. -/
theorem AllFulfilled.snoc {past : History I} (h : AllFulfilled past) (c : I.Call)
    (a : I.Answer c) : AllFulfilled (past ++ [⟨c, .ok a⟩]) := by
  intro c' e hmem
  rcases List.mem_append.mp hmem with hmem | hmem
  · exact h c' e hmem
  · cases List.mem_singleton.mp hmem

/-- A program that fails fast is fulfilled when all its calls are, and else rejected with the
reason of the one that is not. -/
theorem FailsFast.safe {p : Program I α} (h : FailsFast p) {past : History I}
    (hpast : AllFulfilled past) :
    Safe (fun past _ => AllFulfilled past)
      (fun past o => match o with
        | .ok _ => AllFulfilled past
        | .error e => ∀ (c : I.Call) (r : I.Reason), (⟨c, .error r⟩ : Event I) ∈ past → r = e)
      past p := by
  induction h generalizing past with
  | settled o =>
    cases o with
    | ok a => exact hpast
    | error e => exact fun c r hmem => absurd hmem (hpast c r)
  | await c next herror _ ih =>
    refine ⟨hpast, fun r => ?_⟩
    cases r with
    | ok a => exact ih a (hpast.snoc c a)
    | error e =>
      -- a rejected call rejects the program, with its own reason
      rw [herror e]
      intro c' r hmem
      rcases List.mem_append.mp hmem with hmem | hmem
      · exact absurd hmem (hpast c' r)
      · cases List.mem_singleton.mp hmem
        rfl

/-- Every call before the last of the run was fulfilled. -/
theorem FailsFast.run {p : Program I α} (h : FailsFast p) (outside : Outside I σ) (s : σ) :
    ∀ ev ∈ (run outside p s).history.dropLast, ev.2.isOk = true := by
  induction h generalizing s with
  | settled o => simp [Async.run]
  | await c next herror _ ih =>
    simp only [Async.run]
    cases hc : (outside c s).1 with
    | error e => simp [herror e]
    | ok a =>
      intro ev hev
      cases hrest : (Async.run outside (next (.ok a)) (outside c s).2).history with
      | nil => simp [hrest] at hev
      | cons ev' rest =>
        rw [hrest, List.dropLast_cons_of_ne_nil (List.cons_ne_nil _ _), List.mem_cons] at hev
        rcases hev with rfl | hev
        · rfl
        · rw [← hrest] at hev
          exact ih a _ ev hev

end Async
