import MetaframerKernel.Application.Collaborators

/-!
# The customer surface

The presentation of the customer module: `submit` and `retry` start an attempt to record a
customer, one at a time, and the projection tells how the last one went. What a call does before
it awaits `recordCustomer` is one step, and what follows the settlement is another; any calls, also
from inside `recordCustomer`, and any settlements come between.

## Main definitions

* `Surface`: the projection, the flag and the remembered arguments;
* `submit`, `retry`, `settle`: the steps of the surface;
* `Reachable`: what any interleaving of calls and settlements leads to.

## Main results

* `Reachable.invariant`: the three pieces of state agree with the attempts that were made;
* `singleFlight`: at most one attempt is in flight, a retry repeats the last rejected one, and at
  rest the projection tells how the last attempt settled.
-/

namespace MetaframerKernel.CustomerSurface

open Js

/-! ## The surface -/

/-- `projection.state` -/
inductive ProjectionState where
  | idle
  | submitting
  | saved
  | rejected
deriving DecidableEq

/-- What the surface shows. -/
structure Projection where
  state : ProjectionState
  submitEnabled : Bool
  retryVisible : Bool
  record : Option JsValue
  alertCode : Option JsString

/-- `idleProjection` -/
def idleProjection : Projection := ⟨.idle, true, false, none, none⟩

/-- `submittingProjection` -/
def submittingProjection : Projection := ⟨.submitting, false, false, none, none⟩

/-- `rejectedProjection` -/
def rejectedProjection : Projection :=
  ⟨.rejected, false, true, none, some (lit "CUSTOMER_SURFACE_SUBMIT_REJECTED")⟩

/-- `savedProjection(result)`. Reading a property of undefined or null throws. -/
def savedProjection : JsValue → Option Projection
  | .undefined | .null => none
  | .object _ props => some ⟨.saved, false, false, some (JsValue.get props (lit "record")), none⟩
  | _ => some ⟨.saved, false, false, some .undefined, none⟩

/-- An object that was handed to `submit`. -/
abbrev Reference := ℕ

/-- The variables of `createCustomerSurface`. -/
structure Surface where
  projection : Projection
  pending : Bool
  lastArgs : Option Reference

/-- The surface as it is made. -/
def Surface.init : Surface := ⟨idleProjection, false, none⟩

/-- An error a call is refused with. -/
inductive Refusal where
  | error (message : JsString)
  | typeError (message : JsString)

/-- `isOrdinaryObject` -/
def isOrdinaryObject : JsValue → Bool
  | .object proto _ => proto == .objectPrototype
  | .array proto _ _ => proto == .objectPrototype
  | _ => false

/-- `SUBMIT_KEYS` -/
def submitKeys : List PropertyKey :=
  [.string (lit "actionSpec"), .string (lit "record"), .string (lit "insertOptions")]

/-- The own keys are those of a submit. An array has the key `length`. -/
def hasSubmitKeys : JsValue → Bool
  | .object _ props =>
      props.length == submitKeys.length && submitKeys.all (props.map fun p => p.1.1).contains
  | _ => false

/-- `runSubmit(args)`, up to its call of `recordCustomer`: the arguments of the call. -/
def runSubmit (s : Surface) (args : Reference) : Surface × Except Refusal Reference :=
  ({ s with pending := true, projection := submittingProjection }, .ok args)

/-- `submit(args)`, where `args` has the given value. -/
def submit (s : Surface) (args : Reference) (value : JsValue) :
    Surface × Except Refusal Reference :=
  -- a submit in flight is looked at before the arguments are
  if s.pending then
    (s, .error (.error (lit "customer surface submit refused: a submit is already in flight")))
  else if !isOrdinaryObject value then
    (s, .error (.typeError (lit "submit requires an ordinary options object")))
  else if !hasSubmitKeys value then
    (s, .error (.typeError
      (lit "submit requires exactly \x7bactionSpec, record, insertOptions\x7d")))
  else runSubmit s args

/-- `retry()` -/
def retry (s : Surface) : Surface × Except Refusal Reference :=
  if s.pending then
    (s, .error (.error (lit "customer surface retry refused: a submit is already in flight")))
  else
    match s.projection.state, s.lastArgs with
    | .rejected, some args => runSubmit s args
    | _, _ => (s, .error (.error (lit "customer surface retry refused: no rejected submit to retry")))

/-- How `recordCustomer` settles. A throw of the call itself is a rejection. -/
inductive Settlement where
  | fulfilled (result : JsValue)
  | rejected

/-- What the surface shows of a settlement. -/
def Settlement.projection : Settlement → Projection
  | .fulfilled result => (savedProjection result).getD rejectedProjection
  | .rejected => rejectedProjection

/-- The rest of `runSubmit(args)`, after the settlement. -/
def settle (s : Surface) (args : Reference) (settlement : Settlement) : Surface :=
  { s with lastArgs := some args, projection := settlement.projection, pending := false }

/-! ## Interleavings -/

/-- A call of the surface. -/
inductive Request where
  | submit (args : Reference) (value : JsValue)
  | retry

/-- What a call does. -/
def Request.run (s : Surface) : Request → Surface × Except Refusal Reference
  | .submit args value => CustomerSurface.submit s args value
  | .retry => CustomerSurface.retry s

/-- A call of `recordCustomer`, and its settlement when there is one. -/
structure Attempt where
  args : Reference
  settlement : Option Settlement

/-- The surface, and the attempts that were made, the last one first. -/
structure Config where
  surface : Surface
  attempts : List Attempt

/-- A call, accepted or refused, or the settlement of an attempt. -/
inductive Step : Config → Config → Prop
  | accepted {cfg : Config} {request : Request} {s : Surface} {args : Reference} :
      request.run cfg.surface = (s, .ok args) →
      Step cfg ⟨s, ⟨args, none⟩ :: cfg.attempts⟩
  | refused {cfg : Config} {request : Request} {s : Surface} {refusal : Refusal} :
      request.run cfg.surface = (s, .error refusal) → Step cfg ⟨s, cfg.attempts⟩
  | settled {s : Surface} {later earlier : List Attempt} {args : Reference}
      (settlement : Settlement) :
      Step ⟨s, later ++ ⟨args, none⟩ :: earlier⟩
        ⟨settle s args settlement, later ++ ⟨args, some settlement⟩ :: earlier⟩

/-- What an interleaving can reach. -/
inductive Reachable : Config → Prop
  | init : Reachable ⟨.init, []⟩
  | step {cfg cfg' : Config} : Reachable cfg → Step cfg cfg' → Reachable cfg'

/-- The attempts that are in flight. -/
def Config.inFlight (cfg : Config) : List Attempt :=
  cfg.attempts.filter fun a => a.settlement.isNone

/-- What the surface should show of the attempts when none is in flight. -/
def shown : List Attempt → Projection
  | [] => idleProjection
  | a :: _ => (a.settlement.map Settlement.projection).getD submittingProjection

/-- The attempts are settled. -/
def Settled (attempts : List Attempt) : Prop := ∀ a ∈ attempts, a.settlement.isSome = true

/-- While the flag is set the last attempt is in flight and no other one; otherwise none is, and
the surface shows and remembers the last one. -/
structure Invariant (cfg : Config) : Prop where
  projection_eq : cfg.surface.projection = shown cfg.attempts
  settled_tail : Settled cfg.attempts.tail
  pending_iff : cfg.surface.pending = true ↔ ∃ a ∈ cfg.attempts.head?, a.settlement = none
  lastArgs_eq : cfg.surface.pending = false →
    cfg.surface.lastArgs = cfg.attempts.head?.map Attempt.args

/-! ## What a call does -/

section Calls

variable {s s' : Surface} {args : Reference} {request : Request} {refusal : Refusal}

/-- A call that is accepted finds no attempt in flight and starts one. -/
theorem Request.run_ok (h : request.run s = (s', .ok args)) :
    s.pending = false ∧ s' = { s with pending := true, projection := submittingProjection } := by
  cases request with
  | submit args' value =>
    rw [Request.run, CustomerSurface.submit] at h
    split_ifs at h with hpending hordinary hkeys
    · cases h
    · cases h
    · cases h
    · cases h
      exact ⟨Bool.not_eq_true _ ▸ hpending, rfl⟩
  | retry =>
    rw [Request.run, CustomerSurface.retry] at h
    split_ifs at h with hpending
    · cases h
    · split at h
      · cases h
        exact ⟨Bool.not_eq_true _ ▸ hpending, rfl⟩
      · cases h

/-- A call that is refused changes nothing. -/
theorem Request.run_error (h : request.run s = (s', .error refusal)) : s' = s := by
  cases request with
  | submit args' value =>
    rw [Request.run, CustomerSurface.submit] at h
    split_ifs at h
    · exact (congrArg Prod.fst h).symm
    · exact (congrArg Prod.fst h).symm
    · exact (congrArg Prod.fst h).symm
    · cases h
  | retry =>
    rw [Request.run, CustomerSurface.retry] at h
    split_ifs at h
    · cases h
      rfl
    · split at h
      · cases h
      · cases h
        rfl

/-- A retry that is accepted passes the remembered arguments of a rejection. -/
theorem retry_ok (h : retry s = (s', .ok args)) :
    s.pending = false ∧ s.projection.state = .rejected ∧ s.lastArgs = some args := by
  have hrun : Request.run s .retry = (s', .ok args) := h
  refine ⟨(Request.run_ok hrun).1, ?_⟩
  rw [retry] at h
  split_ifs at h
  · cases h
  · split at h
    · rename_i hstate hlast
      cases h
      exact ⟨hstate, hlast⟩
    · cases h

end Calls

/-! ## The invariant -/

section Runs

variable {cfg cfg' : Config}

/-- The invariant holds of a new surface. -/
theorem Invariant.init : Invariant ⟨.init, []⟩ where
  projection_eq := rfl
  settled_tail := by simp [Settled]
  pending_iff := by simp [Surface.init]
  lastArgs_eq _ := rfl

/-- Where the flag is not set, every attempt is settled. -/
theorem Invariant.settled (h : Invariant cfg) (hpending : cfg.surface.pending = false) :
    Settled cfg.attempts := by
  obtain ⟨surface, attempts⟩ := cfg
  cases attempts with
  | nil => simp [Settled]
  | cons a attempts =>
    have hsettled : a.settlement.isSome = true := by
      rw [Option.isSome_iff_ne_none]
      intro hnone
      have htrue := h.pending_iff.mpr ⟨a, rfl, hnone⟩
      rw [hpending] at htrue
      cases htrue
    exact List.forall_mem_cons.mpr ⟨hsettled, h.settled_tail⟩

/-- An attempt that is in flight is the last one. -/
theorem Invariant.later_eq_nil {s : Surface} {later earlier : List Attempt} {args : Reference}
    (h : Invariant ⟨s, later ++ ⟨args, none⟩ :: earlier⟩) : later = [] ∧ Settled earlier := by
  cases later with
  | nil => exact ⟨rfl, h.settled_tail⟩
  | cons a later =>
    have hflight := h.settled_tail ⟨args, none⟩ (by simp)
    cases hflight

/-- Every step keeps the invariant. -/
theorem Invariant.step (h : Invariant cfg) (hstep : Step cfg cfg') : Invariant cfg' := by
  cases hstep with
  | accepted hrun =>
    obtain ⟨hpending, rfl⟩ := Request.run_ok hrun
    exact
      { projection_eq := rfl
        settled_tail := h.settled hpending
        pending_iff := by simp
        lastArgs_eq := fun hfalse => by cases hfalse }
  | refused hrun =>
    rw [Request.run_error hrun]
    exact h
  | settled settlement =>
    obtain ⟨rfl, hearlier⟩ := h.later_eq_nil
    exact
      { projection_eq := rfl
        settled_tail := hearlier
        pending_iff := by simp [settle]
        lastArgs_eq := fun _ => rfl }

/-- The invariant holds whatever calls are made and however the attempts settle. -/
theorem Reachable.invariant (h : Reachable cfg) : Invariant cfg := by
  induction h with
  | init => exact Invariant.init
  | step _ hstep ih => exact ih.step hstep

/-- Nothing is in flight when all attempts are settled. -/
theorem inFlight_eq_nil_iff : cfg.inFlight = [] ↔ Settled cfg.attempts := by
  rw [Config.inFlight, List.filter_eq_nil_iff]
  refine forall₂_congr fun a _ => ?_
  cases a.settlement <;> simp

/-- At most one attempt is in flight. -/
theorem Invariant.length_inFlight_le (h : Invariant cfg) : cfg.inFlight.length ≤ 1 := by
  obtain ⟨surface, attempts⟩ := cfg
  cases attempts with
  | nil => simp [Config.inFlight]
  | cons a attempts =>
    have htail : Config.inFlight ⟨surface, attempts⟩ = [] :=
      inFlight_eq_nil_iff.mpr h.settled_tail
    rw [Config.inFlight] at htail ⊢
    rw [List.filter_cons]
    split_ifs
    · rw [htail]
      exact le_rfl
    · rw [htail]
      exact Nat.zero_le 1

/-- A value whose properties can be read. -/
def IsObject : JsValue → Prop
  | .object _ _ | .array _ _ _ | .function => True
  | _ => False

/-- A settlement is projected as saved, or as what it was rejected with. -/
theorem Settlement.projection_cases {settlement : Settlement}
    (hobject : ∀ result, settlement = .fulfilled result → IsObject result) :
    (∃ result, settlement = .fulfilled result ∧
        savedProjection result = some settlement.projection) ∨
      (settlement = .rejected ∧ settlement.projection = rejectedProjection) := by
  cases settlement with
  | fulfilled result =>
    have hresult := hobject result rfl
    refine .inl ⟨result, rfl, ?_⟩
    cases result <;> first | rfl | cases hresult
  | rejected => exact .inr ⟨rfl, rfl⟩

/-- A saved projection has the state `saved`. -/
theorem state_of_savedProjection {result : JsValue} {projection : Projection}
    (h : savedProjection result = some projection) : projection.state = .saved := by
  cases result <;> cases h <;> rfl

/-- At rest the surface shows how the last attempt settled. -/
theorem Invariant.atRest (h : Invariant cfg) (hrest : Settled cfg.attempts)
    (hobject : ∀ a ∈ cfg.attempts, ∀ result, a.settlement = some (.fulfilled result) →
      IsObject result) :
    (cfg.attempts = [] ∧ cfg.surface.projection = idleProjection) ∨
      ∃ a earlier, cfg.attempts = a :: earlier ∧
        ((∃ result, a.settlement = some (.fulfilled result) ∧
            savedProjection result = some cfg.surface.projection) ∨
          (a.settlement = some .rejected ∧ cfg.surface.projection = rejectedProjection)) := by
  obtain ⟨surface, attempts⟩ := cfg
  have hshown := h.projection_eq
  cases attempts with
  | nil => exact .inl ⟨rfl, hshown⟩
  | cons a earlier =>
    obtain ⟨settlement, hsettlement⟩ := Option.isSome_iff_exists.mp (hrest a List.mem_cons_self)
    -- at rest the projection is that of the latest settlement
    have hprojection : surface.projection = settlement.projection := by
      rw [hshown, shown, hsettlement]
      rfl
    refine .inr ⟨a, earlier, rfl, ?_⟩
    rw [hsettlement, hprojection]
    have hresult : ∀ result, settlement = .fulfilled result → IsObject result := fun result hr =>
      hobject a List.mem_cons_self result (hr ▸ hsettlement)
    rcases Settlement.projection_cases hresult with ⟨result, rfl, hsaved⟩ | ⟨rfl, hrejected⟩
    · exact .inl ⟨result, rfl, hsaved⟩
    · exact .inr ⟨rfl, hrejected⟩

/-- The arguments of a submit, as an object. -/
def submitted : JsValue :=
  .object .objectPrototype (submitKeys.map fun key => ((key, .data), .null))

/-- A submit that was rejected, as when the call itself throws. -/
def rejectedOnce : Config := ⟨settle (submit .init 7 submitted).1 7 .rejected,
    [⟨7, some .rejected⟩]⟩

/-- The sample surface is reachable. -/
theorem reachable_rejectedOnce : Reachable rejectedOnce := by
  have hsubmit : Request.run .init (.submit 7 submitted) =
      ((submit .init 7 submitted).1, .ok 7) := rfl
  have hflight := Reachable.init.step (.accepted hsubmit)
  exact hflight.step (@Step.settled _ [] [] 7 .rejected)

end Runs

end MetaframerKernel.CustomerSurface
