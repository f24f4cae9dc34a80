import Mathlib.Data.List.Chain
import MetaframerKernel.Consumers.CustomerModuleApi

/-!
# Sessions of the surface over the customer module

The surface, the customer module and the data cutover together. Each attempt of the surface is a
call of `recordCustomer`, which goes on as the calls it makes are answered, whatever other requests
the surface is given meanwhile; the surface sees how a call has settled some time after it has. The
arguments are read when the call is made, so a retry may find the object it passes again changed.

## Main definitions

* `Recording`: an attempt, with the calls it has made and the program that is left of it;
* `Step`, `Reachable`: the interleavings of requests, answers and settlements.

## Main results

* `Step.simulates`, `Reachable.config`: what happens in a session is what can happen to the surface
  on its own;
* `Reachable.invariant`: every attempt is a run of the module, and retries follow rejections;
* `keepsNothing_of_retries`: what was retried has kept nothing;
* `keptOnce`: the surface shows what was kept, and nothing is kept twice by retrying.
-/

namespace MetaframerKernel.RecordingSessions

open Js Async Program CustomerDataCutover CustomerModuleApi CustomerSurface

/-! ## Sessions -/

/-- An attempt of the surface. -/
structure Recording where
  request : Request
  args : Reference
  /-- What the arguments are when `recordCustomer` is called, and the writer that is active. -/
  value : JsValue
  activeWriter : Writer
  past : History cutover
  left : Program cutover (Except CustomerModuleApi.Refusal JsValue)
  /-- How the surface has seen the call settle. -/
  settlement : Option Settlement

/-- The attempt, as the surface has it. -/
def Recording.attempt (a : Recording) : Attempt := ⟨a.args, a.settlement⟩

/-- How the surface sees an outcome. -/
def settlementOf : Except Thrown (Except CustomerModuleApi.Refusal JsValue) → Settlement
  | .ok (.ok result) => .fulfilled result
  | _ => .rejected

/-- The surface, and its attempts, the last one first. -/
structure Session where
  surface : CustomerSurface.Surface
  recordings : List Recording

/-- The session, as far as the surface goes. -/
def Session.config (t : Session) : Config := ⟨t.surface, t.recordings.map Recording.attempt⟩

variable (dates : Dates) (buildActionSpec : JsValue → Except Thrown JsValue)

/-- A call of `recordCustomer`. -/
def Recording.start (request : Request) (args : Reference) (value : JsValue)
    (activeWriter : Writer) : Recording :=
  ⟨request, args, value, activeWriter, [],
    recordCustomer dates buildActionSpec activeWriter value, none⟩

/-- A request, accepted or refused, an answer to a call, or the settlement of an attempt. -/
inductive Step : Session → Session → Prop
  | accepted {t : Session} {request : Request} {s : CustomerSurface.Surface} {args : Reference}
      (value : JsValue) (activeWriter : Writer) :
      request.run t.surface = (s, .ok args) →
      (∀ value', request = .submit args value' → value = value') →
      Step t ⟨s, Recording.start dates buildActionSpec request args value activeWriter ::
        t.recordings⟩
  | refused {t : Session} {request : Request} {s : CustomerSurface.Surface}
      {refusal : CustomerSurface.Refusal} :
      request.run t.surface = (s, .error refusal) → Step t ⟨s, t.recordings⟩
  | answered {s : CustomerSurface.Surface} {later earlier : List Recording} {a : Recording}
      {c : CutoverCall}
      {next : cutover.Settled c → Program cutover (Except CustomerModuleApi.Refusal JsValue)}
      (r : cutover.Settled c) :
      a.left = .await c next →
      Step ⟨s, later ++ a :: earlier⟩
        ⟨s, later ++ { a with past := a.past ++ [⟨c, r⟩], left := next r } :: earlier⟩
  | settled {s : CustomerSurface.Surface} {later earlier : List Recording} {a : Recording}
      {o : Except Thrown (Except CustomerModuleApi.Refusal JsValue)} :
      a.left = .settled o → a.settlement = none →
      Step ⟨s, later ++ a :: earlier⟩
        ⟨settle s a.args (settlementOf o),
          later ++ { a with settlement := some (settlementOf o) } :: earlier⟩

/-- What an interleaving can reach. -/
inductive Reachable : Session → Prop
  | init : Reachable ⟨.init, []⟩
  | step {t t' : Session} : Reachable t → Step dates buildActionSpec t t' → Reachable t'

/-! ## The surface on its own -/

section Simulation

variable {dates buildActionSpec} {t t' : Session}

/-- What happens in a session happens to the surface, which does not see the answers. -/
theorem Step.simulates (h : Step dates buildActionSpec t t') :
    CustomerSurface.Step t.config t'.config ∨ t'.config = t.config := by
  cases h with
  | accepted value activeWriter hrun _ => exact .inl (.accepted hrun)
  | refused hrun => exact .inl (.refused hrun)
  | answered r hleft =>
    refine .inr ?_
    rw [Session.config, Session.config, List.map_append, List.map_append]
    rfl
  | @settled s later earlier a o hleft hnone =>
    refine .inl ?_
    have hstep : CustomerSurface.Step
        ⟨s, later.map Recording.attempt ++ ⟨a.args, none⟩ :: earlier.map Recording.attempt⟩
        ⟨settle s a.args (settlementOf o),
          later.map Recording.attempt ++
            ⟨a.args, some (settlementOf o)⟩ :: earlier.map Recording.attempt⟩ := .settled _
    rw [Session.config, Session.config, List.map_append, List.map_append]
    rw [← hnone] at hstep
    exact hstep

/-- The surface of a reachable session is reachable. -/
theorem Reachable.config (h : Reachable dates buildActionSpec t) :
    CustomerSurface.Reachable t.config := by
  induction h with
  | init => exact .init
  | step _ hstep ih =>
    rcases hstep.simulates with hstep | heq
    · exact ih.step hstep
    · rwa [heq]

end Simulation

/-! ## The attempts -/

/-- The attempt is a run of the module, and the surface has seen it settle as it did. -/
structure Recording.Runs (a : Recording) : Prop where
  steps : Steps (recordCustomer dates buildActionSpec a.activeWriter a.value) a.past a.left
  settled : ∀ settlement, a.settlement = some settlement →
    ∃ o, a.left = .settled o ∧ settlement = settlementOf o

/-- A retry passes the arguments of the attempt before it, which was rejected. -/
def Follows (a b : Recording) : Prop :=
  a.request = .retry → a.args = b.args ∧ b.settlement = some .rejected

/-- What a settled attempt has kept is what it was settled with. -/
def Recording.Kept (a : Recording) (settlement : Settlement) : Prop :=
  (∃ admitted, Admits dates buildActionSpec a.value admitted ∧
      settlement = .fulfilled admitted.result ∧ Keeps a.activeWriter admitted a.past) ∨
    (settlement = .rejected ∧ KeepsNothing a.past)

section Attempts

variable {dates buildActionSpec} {t t' : Session} {a : Recording}

/-- A recording that has just begun can run. -/
theorem Recording.runs_start (request : Request) (args : Reference) (value : JsValue)
    (activeWriter : Writer) :
    (Recording.start dates buildActionSpec request args value activeWriter).Runs dates
      buildActionSpec :=
  ⟨.refl _, fun _ h => by cases h⟩

/-- An outcome is seen as what was kept. -/
theorem Recording.Runs.kept (h : a.Runs dates buildActionSpec) {settlement : Settlement}
    (hsettlement : a.settlement = some settlement) : a.Kept dates buildActionSpec settlement := by
  obtain ⟨o, hleft, rfl⟩ := h.settled settlement hsettlement
  have hends : Settles Anything (CallEnds dates buildActionSpec a.activeWriter a.value)
      ([] ++ a.past) a.left :=
    (settles_recordCustomer a.activeWriter a.value).of_steps h.steps fun _ _ => trivial
  rw [hleft] at hends
  -- nothing is left to run, so the call has ended
  replace hends : CallEnds dates buildActionSpec a.activeWriter a.value a.past o := hends
  generalize hpast : a.past = past at hends
  cases hends with
  | refused hadmitted => exact .inr ⟨rfl, hpast ▸ ⟨rfl, rfl⟩⟩
  | kept hadmitted hkeeps => exact .inl ⟨_, admits_of_admission hadmitted, rfl, hpast ▸ hkeeps⟩
  | failed hadmitted hnothing => exact .inr ⟨rfl, hpast ▸ hnothing⟩

/-- What the module fulfils a call with is an object. -/
theorem isObject_of_runs (h : ∀ a ∈ t.recordings, a.Runs dates buildActionSpec) :
    ∀ attempt ∈ t.config.attempts, ∀ result, attempt.settlement = some (.fulfilled result) →
      IsObject result := by
  intro attempt hmem result hresult
  obtain ⟨a, ha, rfl⟩ := List.mem_map.mp hmem
  rcases (h a ha).kept hresult with ⟨admitted, -, heq, -⟩ | ⟨heq, -⟩
  · cases heq
    trivial
  · cases heq

/-- A retry is accepted after a rejected attempt, and passes its arguments. -/
theorem follows_of_retry {s : CustomerSurface.Surface} {args : Reference}
    (h : CustomerSurface.Invariant t.config)
    (hruns : ∀ a ∈ t.recordings, a.Runs dates buildActionSpec)
    (hretry : retry t.surface = (s, .ok args)) :
    ∃ a earlier, t.recordings = a :: earlier ∧ args = a.args ∧ a.settlement = some .rejected := by
  obtain ⟨hpending, hstate, hlast⟩ := retry_ok hretry
  have hargs := (h.lastArgs_eq hpending).symm.trans hlast
  obtain ⟨surface, recordings⟩ := t
  -- the rejected state is that of a last attempt, since an idle surface refuses a retry
  rcases h.atRest (h.settled hpending) (isObject_of_runs hruns) with ⟨-, hidle⟩ | hshown
  · rw [show surface.projection = _ from hidle] at hstate
    cases hstate
  · obtain ⟨attempt, earlier, hattempts, hshown⟩ := hshown
    cases recordings with
    | nil => cases hattempts
    | cons a recordings =>
      obtain ⟨rfl, -⟩ := List.cons.inj hattempts
      rcases hshown with ⟨result, -, hsaved⟩ | ⟨hrejected, -⟩
      · have hsaved : surface.projection.state = .saved := state_of_savedProjection hsaved
        rw [show surface.projection.state = .rejected from hstate] at hsaved
        cases hsaved
      · exact ⟨a, recordings, rfl, (Option.some.inj hargs).symm, hrejected⟩

end Attempts

/-! ## Interleavings -/

/-- The surface is in order, every attempt is a run of the module, and every retry follows a
rejection. -/
structure Invariant (t : Session) : Prop where
  surface : CustomerSurface.Invariant t.config
  runs : ∀ a ∈ t.recordings, a.Runs dates buildActionSpec
  follows : t.recordings.IsChain Follows

section Interleavings

variable {dates buildActionSpec} {t t' : Session} {s : CustomerSurface.Surface} {a : Recording}
  {later earlier : List Recording}

/-- Only the last attempt can be in flight. -/
theorem Invariant.later_eq_nil (h : Invariant dates buildActionSpec ⟨s, later ++ a :: earlier⟩)
    (hflight : a.settlement = none) : later = [] := by
  have hsurface := h.surface
  rw [Session.config, List.map_append, List.map_cons, Recording.attempt, hflight] at hsurface
  exact List.map_eq_nil_iff.mp hsurface.later_eq_nil.1

/-- An attempt that awaits an answer is in flight. -/
theorem Recording.Runs.inFlight (h : a.Runs dates buildActionSpec) {c : CutoverCall}
    {next : cutover.Settled c → Program cutover (Except CustomerModuleApi.Refusal JsValue)}
    (hleft : a.left = .await c next) : a.settlement = none := by
  cases hsettlement : a.settlement with
  | none => rfl
  | some settlement =>
    obtain ⟨o, ho, -⟩ := h.settled settlement hsettlement
    rw [hleft] at ho
    cases ho

/-- What comes after an attempt looks at its request and its arguments only. -/
theorem follows_head {b : Recording} (h : (a :: earlier).IsChain Follows)
    (hrequest : b.request = a.request) (hargs : b.args = a.args) :
    (b :: earlier).IsChain Follows := by
  cases earlier with
  | nil => exact .singleton _
  | cons c earlier =>
    obtain ⟨hfollows, hchain⟩ := List.isChain_cons_cons.mp h
    refine List.isChain_cons_cons.mpr ⟨fun hretry => ?_, hchain⟩
    rw [hargs]
    exact hfollows (hrequest ▸ hretry)

/-- The invariant holds before any recording. -/
theorem Invariant.init : Invariant dates buildActionSpec ⟨.init, []⟩ where
  surface := CustomerSurface.Invariant.init
  runs := List.forall_mem_nil _
  follows := .nil

/-- A request that is accepted starts an attempt, which follows the last one. -/
theorem Invariant.follows_start (h : Invariant dates buildActionSpec t) {request : Request}
    {args : Reference} (hrun : request.run t.surface = (s, .ok args)) (value : JsValue)
    (activeWriter : Writer) :
    (Recording.start dates buildActionSpec request args value activeWriter ::
      t.recordings).IsChain Follows := by
  cases hrecordings : t.recordings with
  | nil => exact .singleton _
  | cons b recordings =>
    refine List.isChain_cons_cons.mpr ⟨fun hretry => ?_, hrecordings ▸ h.follows⟩
    obtain rfl : request = .retry := hretry
    obtain ⟨a, earlier, heq, hargs, hrejected⟩ := follows_of_retry h.surface h.runs hrun
    obtain ⟨rfl, -⟩ := List.cons.inj (hrecordings.symm.trans heq)
    exact ⟨hargs, hrejected⟩

/-- Every step keeps the invariant, which the surface keeps on its own. -/
theorem Invariant.step (h : Invariant dates buildActionSpec t)
    (hstep : Step dates buildActionSpec t t') (hsurface : CustomerSurface.Invariant t'.config) :
    Invariant dates buildActionSpec t' := by
  cases hstep with
  | accepted value activeWriter hrun _ =>
    exact
      { surface := hsurface
        runs := List.forall_mem_cons.mpr ⟨Recording.runs_start _ _ _ _, h.runs⟩
        follows := h.follows_start hrun value activeWriter }
  | refused _ => exact ⟨hsurface, h.runs, h.follows⟩
  | answered r hleft =>
    -- the answer is one to the last attempt, since the others are settled
    have hruns := h.runs _ (List.mem_append_right _ List.mem_cons_self)
    have hflight := hruns.inFlight hleft
    obtain rfl := h.later_eq_nil hflight
    obtain ⟨-, hearlier⟩ := List.forall_mem_cons.mp h.runs
    have hsteps := hruns.steps
    rw [hleft] at hsteps
    exact
      { surface := hsurface
        runs := List.forall_mem_cons.mpr ⟨⟨.tail hsteps r, fun settlement hsettlement => by
          rw [show _ = none from hflight] at hsettlement
          cases hsettlement⟩, hearlier⟩
        follows := follows_head h.follows rfl rfl }
  | settled hleft hnone =>
    have hruns := h.runs _ (List.mem_append_right _ List.mem_cons_self)
    obtain rfl := h.later_eq_nil hnone
    obtain ⟨-, hearlier⟩ := List.forall_mem_cons.mp h.runs
    exact
      { surface := hsurface
        runs := List.forall_mem_cons.mpr ⟨⟨hruns.steps, fun settlement hsettlement =>
          ⟨_, hleft, (Option.some.inj hsettlement).symm⟩⟩, hearlier⟩
        follows := follows_head h.follows rfl rfl }

/-- The invariant holds in every reachable session. -/
theorem Reachable.invariant (h : Reachable dates buildActionSpec t) :
    Invariant dates buildActionSpec t := by
  induction h with
  | init => exact .init
  | step hreachable hstep ih => exact ih.step hstep (hreachable.step hstep).config.invariant

/-- A rejected attempt has kept nothing. -/
theorem Recording.Runs.keepsNothing (h : a.Runs dates buildActionSpec)
    (hrejected : a.settlement = some .rejected) : KeepsNothing a.past := by
  rcases h.kept hrejected with ⟨admitted, -, heq, -⟩ | ⟨-, hnothing⟩
  · cases heq
  · exact hnothing

/-- The attempts that a run of retries repeats were made with its arguments and kept nothing. -/
theorem keepsNothing_of_retries {retried : List Recording}
    (h : (a :: retried).IsChain Follows) (hruns : ∀ b ∈ retried, b.Runs dates buildActionSpec)
    (hretries : ∀ b ∈ (a :: retried).dropLast, b.request = .retry) :
    ∀ b ∈ retried, b.args = a.args ∧ KeepsNothing b.past := by
  induction retried generalizing a with
  | nil => exact List.forall_mem_nil _
  | cons b retried ih =>
    obtain ⟨hfollows, hchain⟩ := List.isChain_cons_cons.mp h
    rw [List.dropLast_cons_cons, List.forall_mem_cons] at hretries
    obtain ⟨hargs, hrejected⟩ := hfollows hretries.1
    obtain ⟨hb, hruns⟩ := List.forall_mem_cons.mp hruns
    refine List.forall_mem_cons.mpr ⟨⟨hargs.symm, hb.keepsNothing hrejected⟩, fun c hc => ?_⟩
    obtain ⟨hsame, hnothing⟩ := ih hchain hruns hretries.2 c hc
    exact ⟨hsame.trans hargs.symm, hnothing⟩

/-- The surface shows the record of a result. -/
theorem savedProjection_result (admitted : Admitted) :
    savedProjection admitted.result =
      some ⟨.saved, false, false, some admitted.canonical.toValue, none⟩ := by
  have hkeys : lit "ok" ≠ lit "record" := by decide
  have hrecord : JsValue.get (CustomerRecordsSchema.dataProperties
      [(lit "ok", .boolean true), (lit "record", admitted.canonical.toValue)]) (lit "record") =
        admitted.canonical.toValue := by
    simp [JsValue.get, JsValue.property?, CustomerRecordsSchema.dataProperties, hkeys]
  exact congrArg (fun record => some (Projection.mk .saved false false (some record) none)) hrecord

/-- What the surface shows when it has seen its last attempt settle. -/
theorem Invariant.shown (h : Invariant dates buildActionSpec t)
    (hrest : ∀ a ∈ t.recordings, a.settlement.isSome = true) :
    (t.recordings = [] ∧ t.surface.projection = idleProjection) ∨
      ∃ a earlier, t.recordings = a :: earlier ∧
        ((∃ admitted, Admits dates buildActionSpec a.value admitted ∧
            Keeps a.activeWriter admitted a.past ∧
            t.surface.projection =
              ⟨.saved, false, false, some admitted.canonical.toValue, none⟩) ∨
          (KeepsNothing a.past ∧ t.surface.projection = rejectedProjection)) := by
  have hsettled : Settled t.config.attempts := by
    intro attempt hmem
    obtain ⟨a, ha, rfl⟩ := List.mem_map.mp hmem
    exact hrest a ha
  have hatRest := h.surface.atRest hsettled (isObject_of_runs h.runs)
  obtain ⟨surface, recordings⟩ := t
  cases recordings with
  | nil =>
    rcases hatRest with ⟨-, hidle⟩ | ⟨_, _, hnil, -⟩
    · exact .inl ⟨rfl, hidle⟩
    · cases hnil
  | cons a earlier =>
    refine .inr ⟨a, earlier, rfl, ?_⟩
    have hruns := h.runs a List.mem_cons_self
    rcases hatRest with ⟨hnil, -⟩ | ⟨attempt, _, hcons, hshown⟩
    · cases hnil
    obtain ⟨rfl, -⟩ := List.cons.inj hcons
    -- a fulfilled attempt has kept the record of its result, which is the one that is shown
    rcases hshown with ⟨result, hresult, hsaved⟩ | ⟨hrejected, hprojection⟩
    · rcases hruns.kept hresult with ⟨admitted, hadmits, heq, hkeeps⟩ | ⟨heq, -⟩
      · obtain rfl := Settlement.fulfilled.inj heq
        rw [savedProjection_result] at hsaved
        exact .inl ⟨admitted, hadmits, hkeeps, (Option.some.inj hsaved).symm⟩
      · cases heq
    · exact .inr ⟨hruns.keepsNothing hrejected, hprojection⟩

/-- Whatever requests the surface is given, whichever writer is active at each and however the
calls are answered: at most one attempt is in flight; an attempt that was seen to be fulfilled has
kept the record it was fulfilled with, once, and one that was seen to be rejected has kept nothing;
of an attempt and the retries of it only the last has kept anything, and all passed one object; and
at rest the surface shows the record that the last attempt has kept, or that it has kept nothing. -/
theorem keptOnce (h : Reachable dates buildActionSpec t) :
    (t.recordings.filter fun a => a.settlement.isNone).length ≤ 1 ∧
      (∀ a ∈ t.recordings, ∀ settlement, a.settlement = some settlement →
        a.Kept dates buildActionSpec settlement) ∧
      (∀ later a retried earlier, t.recordings = later ++ (a :: retried ++ earlier) →
        (∀ b ∈ (a :: retried).dropLast, b.request = .retry) →
        ∀ b ∈ retried, b.args = a.args ∧ KeepsNothing b.past) ∧
      ((∀ a ∈ t.recordings, a.settlement.isSome = true) →
        (t.recordings = [] ∧ t.surface.projection = idleProjection) ∨
          ∃ a earlier, t.recordings = a :: earlier ∧
            ((∃ admitted, Admits dates buildActionSpec a.value admitted ∧
                Keeps a.activeWriter admitted a.past ∧
                t.surface.projection =
                  ⟨.saved, false, false, some admitted.canonical.toValue, none⟩) ∨
              (KeepsNothing a.past ∧ t.surface.projection = rejectedProjection))) := by
  have hinvariant := h.invariant
  -- at most one in flight, what each settlement has kept, retries of one input,
  -- and what is shown at rest
  refine ⟨?_, fun a ha settlement => (hinvariant.runs a ha).kept, ?_, hinvariant.shown⟩
  · have hflight := hinvariant.surface.length_inFlight_le
    rw [Config.inFlight, Session.config, List.filter_map, List.length_map] at hflight
    exact hflight
  · intro later a retried earlier heq
    have hfollows := hinvariant.follows
    have hruns := hinvariant.runs
    rw [heq] at hfollows hruns
    have hretried : ∀ b ∈ retried, b.Runs dates buildActionSpec := fun b hb =>
      hruns b (List.mem_append_right _ (List.mem_append_left _ (List.mem_cons_of_mem _ hb)))
    exact keepsNothing_of_retries hfollows.right_of_append.left_of_append hretried

end Interleavings

section Retry

open CustomerRecordsSchema

def sampleDates : Dates := ⟨readsSampleDate, fun _ => none⟩

def sampleBuildActionSpec (actionSpec : JsValue) : Except Thrown JsValue :=
  if CustomerModuleApi.isOrdinaryObject actionSpec then .ok actionSpec
  else .error (.native (.typeError (lit "buildActionSpec needs an ordinary object")))

def sampleSpec : JsValue := literal [("tenantId", .string (sampleCanonical .null).tenantId)]

def sampleOptions : JsValue :=
  literal [("tenantId", .string (sampleCanonical .null).tenantId),
    ("audit", literal [("action", .string (lit "customer.created")),
      ("correlationId", .string (lit "c"))]),
    ("transactionalOutbox", literal [("eventName", .string (lit "customer.created")),
      ("correlationId", .string (lit "c"))]),
    ("idempotency", literal [("fingerprint", .string (lit "f"))])]

/-- Arguments with this action. -/
def sampleArgs (actionSpec : JsValue) : JsValue :=
  literal [("actionSpec", actionSpec), ("record", sampleRecord .null),
    ("insertOptions", sampleOptions)]

def sampleAdmitted : Admitted := ⟨sampleCanonical .null, sampleOptions⟩

/-- The sample arguments are admitted. -/
theorem admission_sampleArgs :
    admission sampleDates sampleBuildActionSpec (sampleArgs sampleSpec) = .ok sampleAdmitted := by
  have hrecord : property (sampleArgs sampleSpec) "record" = sampleRecord .null := rfl
  have hcanonical : canonicalizeCustomerRecord sampleDates.parses (sampleRecord .null) =
      .ok (sampleCanonical .null) := canonicalize_sampleRecord rfl
  rw [admission, hrecord, hcanonical]
  rfl

/-- An attempt without an action, which was rejected. -/
def rejectedRecording : Recording :=
  { Recording.start sampleDates sampleBuildActionSpec (.submit 7 (sampleArgs .null)) 7
      (sampleArgs .null) .legacy with settlement := some .rejected }

/-- A retry of it with the action, which the legacy writer has fulfilled. -/
def retriedRecording : Recording :=
  ⟨.retry, 7, sampleArgs sampleSpec, .legacy,
    [⟨.legacyInsert (sampleCanonical .null).toValue sampleOptions, .ok JsValue.undefined⟩],
    .settled (.ok (.ok sampleAdmitted.result)), some (.fulfilled sampleAdmitted.result)⟩

/-- The surface after both. -/
def retriedSession : Session :=
  ⟨settle ⟨submittingProjection, true, some 7⟩ 7 (.fulfilled sampleAdmitted.result),
    [retriedRecording, rejectedRecording]⟩

/-- The sample session is reachable. -/
theorem reachable_retriedSession :
    Reachable sampleDates sampleBuildActionSpec retriedSession := by
  -- a submission that the admission refuses, and a retry whose arguments it admits
  have hsubmit : Request.run .init (.submit 7 (sampleArgs .null)) =
      (⟨submittingProjection, true, none⟩, .ok 7) := rfl
  have hinit : Reachable sampleDates sampleBuildActionSpec ⟨.init, []⟩ := .init
  have hsubmitted := hinit.step (.accepted (sampleArgs .null) .legacy hsubmit
    fun _ heq => (Request.submit.inj heq).2)
  have hrejected := hsubmitted.step (@Step.settled sampleDates sampleBuildActionSpec _ [] [] _
    (.ok (.error _)) rfl rfl)
  have hretry : Request.run ⟨rejectedProjection, false, some 7⟩ .retry =
      (⟨submittingProjection, true, some 7⟩, .ok 7) := rfl
  have hretried := hrejected.step (.accepted (sampleArgs sampleSpec) .legacy hretry
    fun _ heq => by cases heq)
  have hleft : recordCustomer sampleDates sampleBuildActionSpec .legacy (sampleArgs sampleSpec) =
      .await (.legacyInsert (sampleCanonical .null).toValue sampleOptions) (onFulfilled fun _ =>
        pure (.ok sampleAdmitted.result)) := by
    rw [recordCustomer, admission_sampleArgs]
    rfl
  have hanswered := hretried.step (@Step.answered sampleDates sampleBuildActionSpec _ []
    [rejectedRecording] _ _ _ (.ok JsValue.undefined) hleft)
  exact hanswered.step (@Step.settled sampleDates sampleBuildActionSpec
    ⟨submittingProjection, true, some 7⟩ [] [rejectedRecording]
    { retriedRecording with settlement := none } _ rfl rfl)

/-- Of an attempt that was rejected and a retry of it only the retry has kept a record, which the
surface shows. -/
theorem keptOnce_retriedSession :
    KeepsNothing rejectedRecording.past ∧
      ∃ admitted, Keeps .legacy admitted retriedRecording.past ∧
        retriedSession.surface.projection =
          ⟨.saved, false, false, some admitted.canonical.toValue, none⟩ := by
  obtain ⟨-, -, hretries, hshown⟩ := keptOnce reachable_retriedSession
  refine ⟨(hretries [] retriedRecording [rejectedRecording] [] rfl ?_ _ List.mem_cons_self).2, ?_⟩
  · exact List.forall_mem_singleton.mpr rfl
  · have hrest : ∀ a ∈ retriedSession.recordings, a.settlement.isSome = true :=
      List.forall_mem_cons.mpr ⟨rfl, List.forall_mem_singleton.mpr rfl⟩
    rcases hshown hrest with ⟨hnil, -⟩ | ⟨a, earlier, heq, hlast⟩
    · cases hnil
    · obtain ⟨rfl, -⟩ := List.cons.inj heq
      rcases hlast with ⟨admitted, -, hkeeps, hsaved⟩ | ⟨-, hrejected⟩
      · exact ⟨admitted, hkeeps, hsaved⟩
      · cases hrejected

end Retry

end MetaframerKernel.RecordingSessions
