import MetaframerKernel.Fixpoint.Rounds
import MetaframerKernel.Js.Json

/-!
# Closure semantics

The closure model of a phase chain, the static analyzer of its edges and the simulator that runs the
chain to a fixed point. A phase is reached when its receipt is issued; an edge is an obligation of
its source phase, which names it in its closure edges.

## Main definitions

* `Model`: phases, edges and the phase of each gap;
* `analyzeClosureGraph`: the static analyzer;
* `visit`, `simulateExecution`: the simulator, with a bound on its rounds.
-/

namespace MetaframerKernel.ClosureSemantics

open Js

/-! ## Models -/

/-- A phase. The list of closure edges is empty where the field is absent. -/
structure Phase where
  id : JsString
  ordinal : ℤ
  receiptId : Option JsString
  predecessor : Option JsString
  closureEdgeIds : List JsString
  closureEdgeCount : Option ℤ
deriving DecidableEq

/-- A closure edge. -/
structure Edge where
  edgeId : JsString
  classification : JsString
  sourceGap : JsString
  destinationGap : JsString
  sourcePhase : JsString
  destinationPhase : JsString
  expectedDestinationReceipt : Option JsString
  owningPhase : Option JsString
deriving DecidableEq

/-- A closure model. -/
structure Model where
  phases : List Phase
  edges : List Edge
  /-- The own properties of the gap registry. -/
  gapPhase : List (JsString × JsString)

/-- `INTRA_ATOMIC` -/
def intraAtomic : JsString := lit "INTRA_ATOMIC"

/-- `FORWARD_DEFERRED` -/
def forwardDeferred : JsString := lit "FORWARD_DEFERRED"

/-- `new Map(phases.map((phase) => [phase.id, phase]))`, which keeps the last of each id. -/
def phaseById (phases : List Phase) (id : JsString) : Option Phase :=
  phases.reverse.find? fun phase => phase.id = id

/-- `edgeById`, which keeps the last of each id. -/
def edgeById (edges : List Edge) (id : JsString) : Option Edge :=
  edges.reverse.find? fun edge => edge.edgeId = id

/-- An integer in a message. -/
def integerText (z : ℤ) : JsString := lit (toString z)

/-- An optional string in a message. -/
def orUndefined (s : Option JsString) : JsString := s.getD (lit "undefined")

/-! ## The analyzer -/

/-- What the analyzer makes of an edge. -/
inductive EdgeVerdict where
  | refused (violation : JsString)
  | backward (violation : JsString)
  | intraAtomic
  | forwardDeferred

/-- The violation of an edge. -/
def EdgeVerdict.violation? : EdgeVerdict → Option JsString
  | refused violation => some violation
  | backward violation => some violation
  | _ => none

/-- The checks of an edge between known phases. -/
def judgeOrdinals (edge : Edge) (source destination : Phase) : EdgeVerdict :=
  if destination.ordinal < source.ordinal then
    .backward (lit "BACKWARD_EDGE:" ++ edge.edgeId ++ lit ":" ++ edge.sourcePhase ++ lit "->" ++
      edge.destinationPhase)
  -- the classification is what the ordinals of the two phases make it
  else if edge.classification ≠
      if destination.ordinal = source.ordinal then intraAtomic else forwardDeferred then
    .refused (lit "CLASSIFICATION_MISMATCH:" ++ edge.edgeId ++ lit ":" ++ edge.classification ++
      lit "!=" ++ if destination.ordinal = source.ordinal then intraAtomic else forwardDeferred)
  else if edge.expectedDestinationReceipt ≠ destination.receiptId then
    .refused (lit "EXPECTED_RECEIPT_MISMATCH:" ++ edge.edgeId ++ lit ":" ++
      orUndefined edge.expectedDestinationReceipt ++ lit "!=" ++ orUndefined destination.receiptId)
  else if edge.owningPhase.any (· ≠ edge.sourcePhase) then
    .refused (lit "OWNING_PHASE_MISMATCH:" ++ edge.edgeId ++ lit ":" ++
      orUndefined edge.owningPhase ++ lit "!=" ++ edge.sourcePhase)
  else if destination.ordinal = source.ordinal then .intraAtomic
  else .forwardDeferred

/-- The checks of an edge whose gaps have phases in the registry. -/
def judgePhases (m : Model) (edge : Edge) (sourcePhase destinationPhase : JsString) :
    EdgeVerdict :=
  if destinationPhase ≠ edge.destinationPhase then
    .refused (lit "DESTINATION_PHASE_MISMATCH:" ++ edge.edgeId ++ lit ":" ++
      edge.destinationPhase ++ lit "!=" ++ destinationPhase)
  else if sourcePhase ≠ edge.sourcePhase then
    .refused (lit "SOURCE_PHASE_MISMATCH:" ++ edge.edgeId ++ lit ":" ++ edge.sourcePhase ++
      lit "!=" ++ sourcePhase)
  else
    -- the gaps are of the phases the edge names, and these have to be there
    match phaseById m.phases edge.sourcePhase, phaseById m.phases edge.destinationPhase with
    | some source, some destination => judgeOrdinals edge source destination
    | _, _ =>
        .refused (lit "PHASE_UNKNOWN:" ++ edge.edgeId ++ lit ":" ++ edge.sourcePhase ++ lit "->" ++
          edge.destinationPhase)

/-- The checks of one edge. -/
def judgeEdge (m : Model) (edge : Edge) : EdgeVerdict :=
  match m.gapPhase.lookup edge.destinationGap, m.gapPhase.lookup edge.sourceGap with
  | none, _ =>
      .refused (lit "DESTINATION_GAP_UNKNOWN:" ++ edge.edgeId ++ lit ":" ++ edge.destinationGap)
  | some _, none =>
      .refused (lit "SOURCE_GAP_UNKNOWN:" ++ edge.edgeId ++ lit ":" ++ edge.sourceGap)
  | some destinationPhase, some sourcePhase => judgePhases m edge sourcePhase destinationPhase

/-- The edges whose id an earlier edge has. -/
def duplicateEdges (seen : List JsString) : List Edge → List JsString
  | [] => []
  | edge :: edges =>
      (if edge.edgeId ∈ seen then [lit "DUPLICATE_EDGE:" ++ edge.edgeId] else []) ++
        duplicateEdges (edge.edgeId :: seen) edges

/-- The check of one edge id that a phase enumerates. -/
def enumeratedViolation (m : Model) (phase : Phase) (id : JsString) : Option JsString :=
  match m.edges.find? fun candidate => candidate.edgeId = id with
  | none => some (lit "EXTRA_EDGE:" ++ phase.id ++ lit ":" ++ id)
  | some edge =>
      if edge.sourcePhase ≠ phase.id then
        some (lit "OWNERSHIP_MISPLACED:" ++ phase.id ++ lit ":" ++ id ++ lit ":" ++
          edge.sourcePhase)
      else none

/-- The checks of what a phase enumerates. -/
def enumerationViolations (m : Model) (phase : Phase) : List JsString :=
  phase.closureEdgeIds.filterMap (enumeratedViolation m phase) ++
    match phase.closureEdgeCount with
    | none => []
    | some count =>
        if count ≠ phase.closureEdgeIds.length then
          [lit "PHASE_COUNT_MISMATCH:" ++ phase.id ++ lit ":" ++ integerText count ++ lit "!=" ++
            integerText phase.closureEdgeIds.length]
        else []

/-- The edge ids the phases enumerate. -/
def enumerated (m : Model) : List JsString := m.phases.flatMap Phase.closureEdgeIds

/-- `accepted`: the ids of the edges, each once. -/
def accepted (m : Model) : List JsString := (m.edges.map Edge.edgeId).eraseDups

/-- The counts of the analyzer. -/
structure Counts where
  totalEdges : ℕ
  intraAtomic : ℕ
  forwardDeferred : ℕ
  backward : ℕ
  duplicate : ℕ
  missing : ℕ
  extra : ℕ

/-- What the analyzer reports. -/
structure Analysis where
  violations : List JsString
  counts : Counts

/-- `analyzeClosureGraph` -/
def analyzeClosureGraph (m : Model) : Analysis where
  violations := (duplicateEdges [] m.edges ++
    m.edges.filterMap (fun edge => (judgeEdge m edge).violation?) ++
    m.phases.flatMap (enumerationViolations m) ++
    -- what the phases list is compared with what the edges are, both ways
    ((accepted m).filter (· ∉ enumerated m)).map (lit "MISSING_EDGE:" ++ ·) ++
    (if (enumerated m).length ≠ (enumerated m).dedup.length then
      [lit "ENUMERATION_DUPLICATE:" ++ integerText (enumerated m).length ++ lit "!=" ++
        integerText (enumerated m).dedup.length]
    else [])).eraseDups
  counts := {
    totalEdges := m.edges.length
    intraAtomic := m.edges.countP fun edge => judgeEdge m edge matches .intraAtomic
    forwardDeferred := m.edges.countP fun edge => judgeEdge m edge matches .forwardDeferred
    backward := m.edges.countP fun edge => judgeEdge m edge matches .backward _
    duplicate := m.edges.length - (accepted m).length
    missing := ((accepted m).filter (· ∉ enumerated m)).length
    extra := ((enumerated m).filter (· ∉ accepted m)).length }

/-! ## The simulator -/

/-- The readings of an obligation that the simulator knows. -/
inductive Semantics where
  | historicalLiteral
  | p01ClosureSemanticsV1
deriving DecidableEq

/-- The name of a reading. -/
def Semantics.name : Semantics → JsString
  | historicalLiteral => lit "HISTORICAL_LITERAL"
  | p01ClosureSemanticsV1 => lit "P01_CLOSURE_SEMANTICS_V1"

/-- `SUPPORTED_EXECUTION_SEMANTICS` -/
def Semantics.ofName? (name : JsString) : Option Semantics :=
  [historicalLiteral, p01ClosureSemanticsV1].find? fun semantics => semantics.name = name

/-- The status of a gap. -/
inductive GapStatus where
  | closed
  | closurePending
deriving DecidableEq

/-- An obligation that waits for its destination phase. -/
structure Debt where
  edgeId : JsString
  sourceGap : JsString
  destinationGap : JsString
  destinationPhase : JsString
  sourcePhaseReceipt : Option JsString

/-- An obligation discharged within its phase. -/
structure IntraDischarge where
  edgeId : JsString
  sourceGap : JsString
  destinationGap : JsString
  receiptId : Option JsString

/-- A debt discharged, and when. -/
structure DischargeTiming where
  edgeId : JsString
  classification : JsString
  sourceGap : JsString
  destinationGap : JsString
  sourcePhaseReceipt : Option JsString
  destinationPhaseReceipt : Option JsString
  recordedAtReceipt : Option JsString

/-- The variables of the simulator. An object that is assigned to is the list of assignments. -/
structure State where
  progress : Bool
  /-- The receipts of the phases reached, by phase id. -/
  issued : List (JsString × Option JsString)
  admittedPhases : List JsString
  consumed : List (JsString × Option JsString)
  reachedPhaseReceipts : List (Option JsString)
  intraDischarges : List IntraDischarge
  dischargeTimings : List DischargeTiming
  violations : List JsString
  openDebts : List (JsString × Debt)
  dischargedEdgeIds : List JsString
  debtsRecordedAt : List (Option JsString × List Debt)
  gapStatusAt : List (Option JsString × List (JsString × GapStatus))

/-- The state before the first round. -/
def State.initial : State := ⟨true, [], [], [], [], [], [], [], [], [], [], []⟩

/-- The ids of the phases reached, in order. -/
def State.issuedIds (st : State) : List JsString := st.issued.map Prod.fst

/-- `set.add(x)` -/
def addOnce (x : JsString) (l : List JsString) : List JsString := if x ∈ l then l else l ++ [x]

/-- `owedBy`: the ids of the edges that originate at each gap. -/
def owedBy (edges : List Edge) : List (JsString × List JsString) :=
  edges.foldl (fun owed edge =>
    putMember edge.sourceGap ((owed.lookup edge.sourceGap).getD [] ++ [edge.edgeId]) owed) []

/-- `gapStatusSnapshot` -/
def gapStatusSnapshot (edges : List Edge) (dischargedEdgeIds : List JsString) :
    List (JsString × GapStatus) :=
  (owedBy edges).map fun p =>
    (p.1, if ∀ id ∈ p.2, id ∈ dischargedEdgeIds then .closed else .closurePending)

/-- The phases in the order they are visited. -/
def sortedPhases (m : Model) : List Phase :=
  m.phases.insertionSort fun p q => p.ordinal ≤ q.ordinal

/-- The check of an obligation whose phases are known. -/
def checkOrdinals (phase destination : Phase) (edge : Edge) : Except JsString Edge :=
  if edge.classification = intraAtomic ∧ destination.ordinal ≠ phase.ordinal then
    .error (lit "INTRA_ATOMIC_OFF_PHASE:" ++ edge.edgeId)
  else if edge.classification = forwardDeferred ∧ destination.ordinal = phase.ordinal then
    .error (lit "FORWARD_DEFERRED_ON_PHASE:" ++ edge.edgeId)
  else if edge.classification = forwardDeferred ∧ destination.ordinal < phase.ordinal then
    .error (lit "FORWARD_DEFERRED_BACKWARD:" ++ edge.edgeId)
  else if edge.classification ≠ intraAtomic ∧ edge.classification ≠ forwardDeferred then
    .error (lit "UNCLASSIFIED_EDGE:" ++ edge.edgeId ++ lit ":" ++ edge.classification)
  else .ok edge

/-- The check of one obligation of a phase. -/
def checkObligation (m : Model) (phase : Phase) (id : JsString) : Except JsString Edge :=
  match edgeById m.edges id with
  | none => .error (lit "UNKNOWN_OBLIGATION:" ++ phase.id ++ lit ":" ++ id)
  | some edge =>
      -- the obligations of a phase are edges that leave it
      if edge.sourcePhase ≠ phase.id then
        .error (lit "SOURCE_PHASE_MISMATCH:" ++ phase.id ++ lit ":" ++ edge.edgeId ++ lit ":" ++
          edge.sourcePhase)
      else
        match phaseById (sortedPhases m) edge.destinationPhase with
        | none =>
            .error (lit "DESTINATION_PHASE_UNKNOWN:" ++ edge.edgeId ++ lit ":" ++
              edge.destinationPhase)
        | some destination => checkOrdinals phase destination edge

/-- The violations among the obligations of a phase. -/
def structuralViolations (m : Model) (phase : Phase) : List JsString :=
  phase.closureEdgeIds.filterMap fun id =>
    match checkObligation m phase id with
    | .error violation => some violation
    | .ok _ => none

/-- `obligations` -/
def obligations (m : Model) (phase : Phase) : List Edge :=
  phase.closureEdgeIds.filterMap fun id => (checkObligation m phase id).toOption

/-- The debt an obligation becomes. -/
def debtOf (phase : Phase) (edge : Edge) : Debt :=
  ⟨edge.edgeId, edge.sourceGap, edge.destinationGap, edge.destinationPhase, phase.receiptId⟩

/-- An obligation of a phase that is reached. -/
def settle (phase : Phase) (st : State) (edge : Edge) : State :=
  if edge.classification = intraAtomic then
    { st with
      dischargedEdgeIds := addOnce edge.edgeId st.dischargedEdgeIds
      intraDischarges := st.intraDischarges ++
        [⟨edge.edgeId, edge.sourceGap, edge.destinationGap, phase.receiptId⟩] }
  else { st with openDebts := putMember edge.edgeId (debtOf phase edge) st.openDebts }

/-- `debtsRecordedAt[phase.receiptId] = recordedHere` -/
def recordDebts (m : Model) (phase : Phase) (st : State) : State :=
  let recordedHere := ((obligations m phase).filter fun edge =>
    edge.classification ≠ intraAtomic).map (debtOf phase)
  { st with
    debtsRecordedAt := st.debtsRecordedAt ++
      if recordedHere = [] then [] else [(phase.receiptId, recordedHere)] }

/-- The discharge of a debt whose destination phase is reached. -/
def timingOf (st : State) (atReceipt : Option JsString) (p : JsString × Debt) :
    DischargeTiming where
  edgeId := p.1
  classification := forwardDeferred
  sourceGap := p.2.sourceGap
  destinationGap := p.2.destinationGap
  sourcePhaseReceipt := p.2.sourcePhaseReceipt
  destinationPhaseReceipt := (st.issued.lookup p.2.destinationPhase).join
  recordedAtReceipt := atReceipt

/-- `dischargeReadyDebts` -/
def dischargeReadyDebts (atReceipt : Option JsString) (st : State) : State :=
  let ready := st.openDebts.filter fun p => p.2.destinationPhase ∈ st.issuedIds
  { st with
    openDebts := st.openDebts.filter fun p => p.2.destinationPhase ∉ st.issuedIds
    dischargedEdgeIds := ready.foldl (fun ids p => addOnce p.1 ids) st.dischargedEdgeIds
    dischargeTimings := st.dischargeTimings ++ ready.map (timingOf st atReceipt) }

/-- `gapStatusAt[phase.receiptId] = gapStatusSnapshot()` -/
def recordStatus (m : Model) (phase : Phase) (st : State) : State :=
  { st with
    gapStatusAt := st.gapStatusAt ++
      [(phase.receiptId, gapStatusSnapshot m.edges st.dischargedEdgeIds)] }

/-- The receipt of a phase is issued. -/
def issue (phase : Phase) (st : State) : State :=
  { st with
    progress := true
    issued := st.issued ++ [(phase.id, phase.receiptId)]
    consumed := st.consumed ++
      (phase.predecessor.map fun p => (phase.id, (st.issued.lookup p).join)).toList
    reachedPhaseReceipts := st.reachedPhaseReceipts ++ [phase.receiptId] }

/-- The obligations of a phase under the corrected reading. -/
def settleObligations (m : Model) (phase : Phase) (st : State) : State :=
  recordStatus m phase (dischargeReadyDebts phase.receiptId
    (recordDebts m phase ((obligations m phase).foldl (settle phase) st)))

/-- A phase that is admitted. -/
def admitPhase (m : Model) (phase : Phase) (st : State) : State :=
  { st with
    admittedPhases := addOnce phase.id st.admittedPhases
    violations := st.violations ++ structuralViolations m phase }

/-- One pass of the inner loop. -/
def visit (m : Model) (semantics : Semantics) (st : State) (phase : Phase) : State :=
  if phase.id ∈ st.issuedIds then st
  else if ∃ p ∈ phase.predecessor, p ∉ st.issuedIds then st
  -- a phase with obligations that are no edges of its own is admitted and never issued
  else if structuralViolations m phase ≠ [] then admitPhase m phase st
  else
    match semantics with
    | .historicalLiteral =>
        -- the old reading: an obligation waits for its destination, a later phase as well
        if ∃ edge ∈ obligations m phase, edge.destinationPhase ∉ st.issuedIds then
          admitPhase m phase st
        else issue phase (admitPhase m phase st)
    | .p01ClosureSemanticsV1 => settleObligations m phase (issue phase (admitPhase m phase st))

/-- The loops of the simulator. -/
def loop (m : Model) (semantics : Semantics) : Loop Phase JsString State where
  items := sortedPhases m
  key := Phase.id
  start st := { st with progress := false }
  visit := visit m semantics
  added := State.issuedIds
  progress := State.progress

/-- What the simulator reports. -/
structure Result where
  semantics : JsString
  reachedPhaseReceipts : List (Option JsString)
  admittedPhases : List JsString
  consumed : List (JsString × Option JsString)
  intraDischarges : List IntraDischarge
  forwardDebts : List Debt
  debtsRecordedAt : List (Option JsString × List Debt)
  dischargeTimings : List DischargeTiming
  gapStatusAt : List (Option JsString × List (JsString × GapStatus))
  gapStatusFinal : List (JsString × GapStatus)
  blockedPhases : List JsString
  blockedBy : List (JsString × List JsString)
  selfCycles : List JsString
  deadlocked : Bool
  violations : List JsString

/-- `selfCycles` -/
def selfCycles (m : Model) : List JsString :=
  (m.edges.filter fun edge => edge.sourcePhase = edge.destinationPhase).map Edge.edgeId

/-- The phases that are not reached. -/
def blockedPhases (m : Model) (st : State) : List Phase :=
  (sortedPhases m).filter fun phase => phase.id ∉ st.issuedIds

/-- The report on the last state. -/
def report (m : Model) (semantics : Semantics) (st : State) : Result where
  semantics := semantics.name
  reachedPhaseReceipts := st.reachedPhaseReceipts
  admittedPhases := st.admittedPhases
  consumed := st.consumed
  intraDischarges := st.intraDischarges
  forwardDebts := st.openDebts.map Prod.snd
  debtsRecordedAt := st.debtsRecordedAt
  dischargeTimings := st.dischargeTimings
  gapStatusAt := st.gapStatusAt
  -- the snapshots of the steps are kept, and one more is taken at the end
  gapStatusFinal := gapStatusSnapshot m.edges st.dischargedEdgeIds
  blockedPhases := (blockedPhases m st).map Phase.id
  blockedBy := (blockedPhases m st).filterMap fun phase =>
    -- an id without an edge blocks nothing
    let known := phase.closureEdgeIds.filter fun id => (edgeById m.edges id).isSome
    if known = [] then none else some (phase.id, known)
  selfCycles := selfCycles m
  deadlocked := !(blockedPhases m st).isEmpty
  violations := st.violations.eraseDups

/-- The report under a reading the simulator does not know. -/
def unsupported (m : Model) (semantics : JsString) : Result where
  semantics
  reachedPhaseReceipts := []
  admittedPhases := []
  consumed := []
  intraDischarges := []
  forwardDebts := []
  debtsRecordedAt := []
  dischargeTimings := []
  gapStatusAt := []
  gapStatusFinal := []
  blockedPhases := (sortedPhases m).map Phase.id
  blockedBy := []
  selfCycles := selfCycles m
  deadlocked := !(sortedPhases m).isEmpty
  violations := [lit "SEMANTICS_UNSUPPORTED:" ++ semantics]

/-- The simulation under a named reading, taking at most `fuel` rounds. -/
def simulateNamed (m : Model) (name : JsString) (fuel : ℕ) : Option Result :=
  match Semantics.ofName? name with
  | none => some (unsupported m name)
  | some semantics => ((loop m semantics).run fuel .initial).map (report m semantics)

/-- `simulateExecution`, taking at most `fuel` rounds. -/
def simulateExecution (m : Model) (semantics : Option JsString) (fuel : ℕ) : Option Result :=
  simulateNamed m (semantics.getD Semantics.p01ClosureSemanticsV1.name) fuel

/-! ## A sample -/

/-- Two phases, the first with an edge of its own and one to the second. -/
def sampleModel : Model where
  phases := [
    ⟨lit "P-02", 2, some (lit "R2"), some (lit "P-01"), [], some 0⟩,
    ⟨lit "P-01", 1, some (lit "R1"), none, [lit "E1", lit "E2"], some 2⟩]
  edges := [
    ⟨lit "E1", intraAtomic, lit "G1", lit "G2", lit "P-01", lit "P-01", some (lit "R1"), none⟩,
    ⟨lit "E2", forwardDeferred, lit "G1", lit "G3", lit "P-01", lit "P-02", some (lit "R2"),
      some (lit "P-01")⟩]
  gapPhase := [(lit "G1", lit "P-01"), (lit "G2", lit "P-01"), (lit "G3", lit "P-02")]

end MetaframerKernel.ClosureSemantics
