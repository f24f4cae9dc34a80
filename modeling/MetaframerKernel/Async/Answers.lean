import MetaframerKernel.Async.Program

/-!
# Programs under assumptions on the answers

What a program ends with when every call is answered as its documentation says, and programs of one
interface run inside another that has further calls.

## Main definitions

* `Settles`, `Fulfils`: a postcondition of every run whose answers meet an assumption;
* `Interface.extend`, `Program.widen`: an interface with further calls, and a program over it that
  makes none of them;
* `Program.answeredBy`: a program whose calls are answered by programs of another interface.

## Main results

* `Settles.bind`, `Settles.askBind`, `Fulfils.bind`: rules for composed programs;
* `Settles.run`, `Settles.of_steps`: the postcondition at the end of a run, and along it;
* `run_widen`: a widened program runs as the program does;
* `answeredBy_bind`, `answeredBy_mapM`, `answeredBy_foldlM`: rules for composed programs;
* `Safe.answeredBy`: a safe program whose calls are answered safely.
-/

namespace Async

open Program

variable {I : Interface} {α β σ E : Type}

/-! ## Postconditions under an assumption -/

section Settles

variable {D : Event I → Prop} {Q Q' : History I → Except I.Reason α → Prop}
  {R : History I → Except I.Reason β → Prop} {past : History I}

/-- After the given history, every outcome of the program meets the postcondition, as long as its
calls are answered as assumed. -/
def Settles (D : Event I → Prop) (Q : History I → Except I.Reason α → Prop) :
    History I → Program I α → Prop
  | past, settled o => Q past o
  | past, await c next => ∀ r, D ⟨c, r⟩ → Settles D Q (past ++ [⟨c, r⟩]) (next r)

/-- The rule of composition. -/
theorem Settles.andThen {p : Program I α} {f : Except I.Reason α → Program I β}
    (h : Settles D Q past p) (hf : ∀ past o, Q past o → Settles D R past (f o)) :
    Settles D R past (p.andThen f) := by
  induction p generalizing past with
  | settled o => exact hf past o h
  | await c next ih => exact fun r hr => ih r (h r hr)

/-- The rule of consequence. -/
theorem Settles.mono {p : Program I α} (h : Settles D Q past p)
    (hQ : ∀ past o, Q past o → Q' past o) : Settles D Q' past p := by
  rw [← andThen_settled p]
  exact h.andThen hQ

/-- A bind settles as its second program does. -/
theorem Settles.bind {p : Program I α} {f : α → Program I β} (h : Settles D Q past p)
    (hok : ∀ past a, Q past (.ok a) → Settles D R past (f a))
    (herror : ∀ past e, Q past (.error e) → R past (.error e)) : Settles D R past (p >>= f) := by
  refine h.andThen fun past o ho => ?_
  cases o with
  | ok a => exact hok past a ho
  | error e => exact herror past e ho

/-- A handler settles as its program does, or as what handles the rejection. -/
theorem Settles.tryCatch {p : Program I α} {f : I.Reason → Program I α} (h : Settles D Q past p)
    (hok : ∀ past a, Q past (.ok a) → Q' past (.ok a))
    (herror : ∀ past e, Q past (.error e) → Settles D Q' past (f e)) :
    Settles D Q' past (MonadExcept.tryCatch p f) := by
  refine h.andThen fun past o ho => ?_
  cases o with
  | ok a => exact hok past a ho
  | error e => exact herror past e ho

/-- The rule of the clean-up. -/
theorem Settles.ensuring {p : Program I α} {cleanup : Program I Unit} (h : Settles D Q past p)
    (hcleanup : ∀ past o, Q past o → Settles D (fun past u => Q' past (u.bind fun _ => o)) past
      cleanup) : Settles D Q' past (p.ensuring cleanup) := by
  refine h.andThen fun past o ho => (hcleanup past o ho).andThen fun past' u hu => ?_
  cases u with
  | ok _ => exact hu
  | error e => exact hu

/-- The rule of a single call that goes on. -/
theorem Settles.askBind {c : I.Call} {f : I.Answer c → Program I β}
    (hD : ∀ r, D ⟨c, r⟩ → ∃ a, r = .ok a)
    (hf : ∀ a, D ⟨c, .ok a⟩ → Settles D R (past ++ [⟨c, .ok a⟩]) (f a)) :
    Settles D R past (Program.ask c >>= f) := by
  intro r hr
  obtain ⟨a, rfl⟩ := hD r hr
  exact hf a hr

/-- The rule of a call that goes on and may be rejected. -/
theorem Settles.tryAskBind {c : I.Call} {f : I.Answer c → Program I β}
    (hok : ∀ a, Settles D R (past ++ [⟨c, .ok a⟩]) (f a))
    (herror : ∀ e, R (past ++ [⟨c, .error e⟩]) (.error e)) :
    Settles D R past (Program.ask c >>= f) := by
  intro r _
  cases r with
  | ok a => exact hok a
  | error e => exact herror e

/-- The rule of a synchronous step. -/
theorem Settles.syncBind {r : Except I.Reason β} {f : β → Program I α}
    (hok : ∀ b, r = .ok b → Settles D Q past (f b))
      (herror : ∀ e, r = .error e → Q past (.error e)) :
    Settles D Q past (Program.sync r >>= f) := by
  cases r with
  | ok b => exact hok b rfl
  | error e => exact herror e rfl

/-- A postcondition of a program on its own holds of what it adds to earlier calls. -/
theorem Settles.after {before : History I} {p : Program I α} (h : Settles D Q past p) :
    Settles D (fun past' o => ∃ rest, past' = before ++ rest ∧ Q rest o) (before ++ past) p := by
  induction p generalizing past with
  | settled o => exact ⟨past, rfl, h⟩
  | await c next ih =>
    intro r hr
    rw [List.append_assoc]
    exact ih r (h r hr)

/-- A program only adds to the history. -/
theorem Settles.subset (p : Program I α) : Settles D (fun past' _ => past ⊆ past') past p := by
  induction p generalizing past with
  | settled o => exact List.Subset.refl past
  | await c next ih =>
    exact fun r _ => (ih r).mono fun past' _ h =>
      List.Subset.trans (List.subset_append_left past _) h

/-- Two postconditions at once. -/
theorem Settles.and {p : Program I α} (h : Settles D Q past p) (h' : Settles D Q' past p) :
    Settles D (fun past o => Q past o ∧ Q' past o) past p := by
  induction p generalizing past with
  | settled o => exact ⟨h, h'⟩
  | await c next ih => exact fun r hr => ih r (h r hr) (h' r hr)

/-- The program is fulfilled, with a value of the property. -/
def Fulfils (D : Event I → Prop) (V : History I → α → Prop) (past : History I)
    (p : Program I α) : Prop :=
  Settles D (fun past o => ∃ a, o = .ok a ∧ V past a) past p

section Fulfils

variable {V : History I → α → Prop}

/-- After a program that is fulfilled, the second one decides. -/
theorem Fulfils.bind {p : Program I α} {f : α → Program I β} (h : Fulfils D V past p)
    (hf : ∀ past a, V past a → Settles D R past (f a)) : Settles D R past (p >>= f) := by
  refine Settles.bind h ?_ ?_
  · rintro past a ⟨_, ⟨⟩, ha⟩
    exact hf past a ha
  · rintro past e ⟨_, ⟨⟩, _⟩

/-- A handler is not run. -/
theorem Fulfils.tryCatch {p : Program I α} (h : Fulfils D V past p)
    (f : I.Reason → Program I α) : Fulfils D V past (MonadExcept.tryCatch p f) := by
  refine Settles.tryCatch h (fun _ _ ha => ha) ?_
  rintro past e ⟨_, ⟨⟩, _⟩

/-- A call that is only ever fulfilled fulfils. -/
theorem Fulfils.ask {c : I.Call} (hD : ∀ r, D ⟨c, r⟩ → ∃ a, r = .ok a)
    {V : History I → I.Answer c → Prop} (hV : ∀ a, D ⟨c, .ok a⟩ → V (past ++ [⟨c, .ok a⟩]) a) :
    Fulfils D V past (Program.ask c) := by
  intro r hr
  obtain ⟨a, rfl⟩ := hD r hr
  exact ⟨a, rfl, hV a hr⟩

end Fulfils

/-- The postcondition at the end of a run. -/
theorem Settles.run {p : Program I α} (h : Settles D Q past p) (outside : Outside I σ) (s : σ)
    (hD : ∀ ev ∈ (Async.run outside p s).history, D ev) :
    Q (past ++ (Async.run outside p s).history) (Async.run outside p s).outcome := by
  induction p generalizing past s with
  | settled o =>
    rw [run_settled, List.append_nil]
    exact h
  | await c next ih =>
    have hrest := ih _ (h _ (hD _ List.mem_cons_self)) (outside c s).2 fun ev hev =>
      hD ev (List.mem_cons_of_mem _ hev)
    rwa [List.append_assoc] at hrest

/-- What is left of a program still settles with the postcondition. -/
theorem Settles.of_steps {rest : History I} {p q : Program I α} (h : Settles D Q past p)
    (hsteps : Steps p rest q) (hD : ∀ ev ∈ rest, D ev) : Settles D Q (past ++ rest) q := by
  induction hsteps with
  | refl => rwa [List.append_nil]
  | tail _ r ih =>
    rw [← List.append_assoc]
    obtain ⟨hrest, hlast⟩ := List.forall_mem_append.mp hD
    exact ih hrest r (hlast _ List.mem_cons_self)

end Settles

/-! ## Further calls -/

/-- An interface with further calls, which are fulfilled with nothing. -/
@[reducible]
def Interface.extend (I : Interface) (E : Type) : Interface where
  Call := I.Call ⊕ E
  Answer := Sum.elim I.Answer fun _ => Unit
  Reason := I.Reason

/-- A program over the larger interface that makes none of the further calls. -/
def Program.widen : Program I α → Program (I.extend E) α
  | settled o => settled o
  | await c next => await (I := I.extend E) (.inl c) fun r => (next r).widen

/-- A bind is widened program by program. -/
theorem widen_bind (p : Program I α) (f : α → Program I β) :
    ((p >>= f).widen : Program (I.extend E) β) = p.widen >>= fun a => (f a).widen := by
  induction p with
  | settled o => cases o <;> rfl
  | await c next ih => exact congrArg (await (I := I.extend E) (.inl c)) (funext ih)

/-- The history in the larger interface. -/
def History.widen (past : History I) : History (I.extend E) :=
  past.map fun ev => ⟨.inl ev.1, ev.2⟩

/-- The further calls of a history. -/
def furtherCalls (past : History (I.extend E)) : List E := past.filterMap fun ev => ev.1.getRight?

/-- What is outside of a program of the smaller interface. -/
def Outside.restrict (outside : Outside (I.extend E) σ) :
    Outside I σ := fun c s => outside (.inl c) s

/-- A widened program runs as the program does. -/
theorem run_widen (outside : Outside (I.extend E) σ) (p : Program I α) (s : σ) :
    run outside p.widen s =
      let r := run outside.restrict p s
      ⟨History.widen r.history, r.outcome, r.state⟩ := by
  induction p generalizing s with
  | settled o => rfl
  | await c next ih =>
    exact congrArg (fun r : Run (I.extend E) σ α =>
        (⟨⟨.inl c, (outside (.inl c) s).1⟩ :: r.history, r.outcome, r.state⟩ :
          Run (I.extend E) σ α))
      (ih (outside (.inl c) s).1 (outside (.inl c) s).2)

/-- A widened history has no further calls. -/
theorem furtherCalls_widen (past : History I) :
    furtherCalls (History.widen past : History (I.extend E)) = [] := by
  rw [furtherCalls, History.widen, List.filterMap_map]
  exact List.filterMap_eq_nil_iff.mpr fun _ _ => rfl

/-- The events of the smaller interface. -/
def History.narrow (past : History (I.extend E)) : History I := past.filterMap fun
  | ⟨.inl c, r⟩ => some ⟨c, r⟩
  | ⟨.inr _, _⟩ => none

/-- A widened history narrows to what it was. -/
theorem narrow_widen (past : History I) :
    History.narrow (History.widen past : History (I.extend E)) = past := by
  rw [History.narrow, History.widen, List.filterMap_map]
  exact List.filterMap_some

/-- Histories are narrowed part by part. -/
theorem narrow_append (past past' : History (I.extend E)) :
    History.narrow (past ++ past') = History.narrow past ++ History.narrow past' :=
  List.filterMap_append

/-- The further calls are those of both parts. -/
theorem furtherCalls_append (past past' : History (I.extend E)) :
    furtherCalls (past ++ past') = furtherCalls past ++ furtherCalls past' :=
  List.filterMap_append

/-! ## Calls that are programs -/

section AnsweredBy

variable {C : Type} {A : C → Type}

/-- The program with each call replaced by a program that answers it. -/
def Program.answeredBy (f : (c : I.Call) → Program ⟨C, A, I.Reason⟩ (I.Answer c)) :
    Program I α → Program ⟨C, A, I.Reason⟩ α
  | settled o => settled o
  | await c next => (f c).andThen fun r => (next r).answeredBy f

variable (f : (c : I.Call) → Program ⟨C, A, I.Reason⟩ (I.Answer c))

/-- A program that goes on is answered part by part. -/
theorem answeredBy_andThen (p : Program I α) (g : Except I.Reason α → Program I β) :
    (p.andThen g).answeredBy f = (p.answeredBy f).andThen fun o => (g o).answeredBy f := by
  induction p with
  | settled o => rfl
  | await c next ih =>
    rw [Program.andThen, Program.answeredBy, Program.answeredBy, andThen_assoc]
    exact congrArg (f c).andThen (funext ih)

/-- A bind is answered program by program. -/
theorem answeredBy_bind (p : Program I α) (g : α → Program I β) :
    (p >>= g).answeredBy f = p.answeredBy f >>= fun a => (g a).answeredBy f := by
  rw [bind_eq, answeredBy_andThen, bind_eq]
  refine congrArg (p.answeredBy f).andThen (funext fun o => ?_)
  cases o with
  | ok a => rfl
  | error e => rfl

/-- A call is answered by its program. -/
theorem answeredBy_ask (c : I.Call) : (Program.ask c).answeredBy f = f c := andThen_settled _

/-- A loop over a list is answered element by element. -/
theorem answeredBy_mapM {ι : Type} (g : ι → Program I β) (l : List ι) :
    (l.mapM g).answeredBy f = l.mapM fun x => (g x).answeredBy f := by
  induction l with
  | nil =>
    rw [List.mapM_nil, List.mapM_nil]
    rfl
  | cons x l ih =>
    simp only [List.mapM_cons, answeredBy_bind, ih]
    rfl

/-- A fold over a list is answered element by element. -/
theorem answeredBy_foldlM {ι : Type} (g : β → ι → Program I β) (l : List ι) (b : β) :
    (l.foldlM g b).answeredBy f = l.foldlM (fun b x => (g b x).answeredBy f) b := by
  induction l generalizing b with
  | nil => rfl
  | cons x l ih => simp only [List.foldlM_cons, answeredBy_bind, ih]

/-- A widened program makes none of the further calls. -/
theorem answeredBy_widen (f : (c : (I.extend E).Call) → Program ⟨C, A, I.Reason⟩
    ((I.extend E).Answer c)) (p : Program I α) :
    (p.widen : Program (I.extend E) α).answeredBy f = p.answeredBy fun c => f (.inl c) := by
  induction p with
  | settled o => rfl
  | await c next ih => exact congrArg (f (.inl c)).andThen (funext ih)

/-- The rule of interpretation: a relation between what the program has called and what has been
called for it, which the answer of each guarded call keeps. -/
theorem Safe.answeredBy {f} {G : History I → I.Call → Prop}
    {Q : History I → Except I.Reason α → Prop}
    {G' : History ⟨C, A, I.Reason⟩ → C → Prop}
    {Q' : History ⟨C, A, I.Reason⟩ → Except I.Reason α → Prop}
    {R : History I → History ⟨C, A, I.Reason⟩ → Prop} {past : History I}
    {past' : History ⟨C, A, I.Reason⟩} {p : Program I α} (h : Safe G Q past p) (hR : R past past')
    (hf : ∀ past past' c, R past past' → G past c →
      Safe G' (fun past' r => R (past ++ [⟨c, r⟩]) past') past' (f c))
    (hQ : ∀ past past' o, R past past' → Q past o → Q' past' o) :
    Safe G' Q' past' (p.answeredBy f) := by
  induction p generalizing past past' with
  | settled o => exact hQ past past' o hR h
  | await c next ih =>
    exact (hf past past' c hR h.1).andThen fun past' r hR => ih r (h.2 r) hR

end AnsweredBy

end Async
