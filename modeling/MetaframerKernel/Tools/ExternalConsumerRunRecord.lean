import MetaframerKernel.Application.CommitReceipt
import MetaframerKernel.Js.Coercions

/-!
# External consumer run records

The checker of run records: the shape of a record, what its own fields say of the run, and the count
of the teams whose runs are accepted. Files are parameters: the text at the path of a record, and
the bytes at the path that a record names for its evidence.

## Main definitions

* `validateShape`, `hiddenHelp`, `decide`: the checks of one record;
* `check`: the transcript of the records on the command line.

## Main results

* `acceptanceSound_iff`: when acceptance says what it should, which it does not where an array
  passes for an outcome.
-/

namespace MetaframerKernel.RunRecord

open Js

/-! ## The rules -/

/-- A ground for a void run. -/
inductive VoidReason where
  | hiddenOwnerHelp
  | nonTeamParticipant
  | mutatedEvidence
deriving DecidableEq

/-- `RULES.voidReasons` -/
def VoidReason.name : VoidReason → JsString
  | hiddenOwnerHelp => lit "hidden-owner-help"
  | nonTeamParticipant => lit "non-team-participant"
  | mutatedEvidence => lit "mutated-evidence"

/-- What becomes of a record. -/
inductive Disposition where
  | accepted
  | observedHelp
  | notAcceptedAbandoned
  | void (reason : VoidReason)
deriving DecidableEq

/-- The name of a disposition. -/
def Disposition.name : Disposition → JsString
  | accepted => lit "accepted"
  | observedHelp => lit "observed:owner-help"
  | notAcceptedAbandoned => lit "not-accepted:abandoned"
  | void reason => lit "void:" ++ reason.name

def completed : JsString := lit "completed"

def abandoned : JsString := lit "abandoned"

def voided : JsString := lit "void"

/-- `RULES.acceptedParticipant` -/
def acceptedParticipant : JsString := lit "real-independent-team"

/-- `RULES.neverCounted` -/
def neverCounted : List JsString := [lit "agent", lit "employee", lit "probe", lit "worker"]

/-- `RULES.recordFields` -/
def recordFields : List JsString :=
  [lit "schemaVersion", lit "runId", lit "teamId", lit "participantKind", lit "payloadVersion",
    lit "outcome", lit "outcomeReason", lit "ownerHelpCount", lit "helpEvents", lit "evidence"]

/-- `RULES.helpEventFields` -/
def helpEventFields : List JsString := [lit "at", lit "channel", lit "question", lit "answer"]

/-- `RULES.evidenceFields` -/
def evidenceFields : List JsString := [lit "path", lit "sha256"]

/-! ## Refusals -/

/-- Why the checker exits without a transcript: `fail`, or an error nothing catches. -/
inductive Stop where
  | fail (code : String) (disposition : Option Disposition) (detail : JsString)
  | thrown (e : NativeError)

/-- `violation` -/
def violation (detail : JsString) : Stop :=
  .fail "RECORD_SCHEMA_VIOLATION" none (lit "a run record " ++ detail)

/-- Stop at the first element that is refused. -/
def refuseFirst {α : Type} (l : List α) (refused : α → Bool) (stop : α → Stop) :
    Except Stop Unit :=
  match l.find? refused with
  | some a => .error (stop a)
  | none => .ok ()

/-! ## The shape -/

/-- The own properties of an object. -/
abbrev Members : Type := List (JsString × Json)

/-- The own properties of an ordinary object. -/
def ordinaryObject? : Option Json → Option Members
  | some (.obj m) => some m
  | _ => none

/-- `isNonEmptyString` -/
def isNonEmptyString : Option Json → Bool
  | some (.str s) => isNonBlank s
  | _ => false

/-- `value === s` for a string. -/
def isString (s : JsString) : Option Json → Bool
  | some (.str t) => t == s
  | _ => false

/-- `value === null` -/
def isNull : Option Json → Bool
  | some .null => true
  | _ => false

/-- `value === n` for an integer. -/
def isInteger (n : ℤ) : Option Json → Bool
  | some (.num x) => x.safeInteger? == some n
  | _ => false

/-- `Number.isSafeInteger(value) && value >= 0` -/
def isWholeCount : Option Json → Bool
  | some (.num x) => x.safeInteger?.any fun n => 0 ≤ n
  | _ => false

/-- `String(value)`, with `undefined` for no value. -/
def textOf : Option Json → Except NativeError JsString
  | some v => v.toText
  | none => .ok (lit "undefined")

/-- The checks of one help event. -/
def checkEvent (event : Json) : Except Stop Unit :=
  match ordinaryObject? (some event) with
  | none => .error (violation (lit "carries a help event that is not an ordinary object"))
  | some members =>
      refuseFirst (ownOrder members) (fun p => !helpEventFields.contains p.1) fun p =>
        violation (lit "carries a help event with the undeclared key " ++ p.1)

/-- The list of help events. -/
def helpEvents? : Option Json → Option (List Json)
  | some (.arr l) => some l
  | _ => none

/-- The checks of `helpEvents`. -/
def checkHelpEvents (helpEvents : Option Json) : Except Stop Unit :=
  match helpEvents? helpEvents with
  | none => .error (violation (lit "carries a helpEvents that is not a list"))
  | some events => events.forM checkEvent

/-- The checks of `evidence`. -/
def checkEvidence (evidence : Option Json) : Except Stop Unit :=
  match ordinaryObject? evidence with
  | none => .error (violation (lit "carries no evidence object"))
  | some members => do
      refuseFirst (ownOrder members) (fun p => !evidenceFields.contains p.1) fun p =>
        violation (lit "carries evidence with the undeclared key " ++ p.1)
      throwIf (isNonEmptyString (members.lookup (lit "path")) = false)
        (violation (lit "carries evidence naming no file"))
      -- a regular expression is matched against the text of what it is given
      let digest ← (textOf (members.lookup (lit "sha256"))).mapError Stop.thrown
      throwIf (isHex64 digest = false)
        (violation (lit "carries an evidence digest that is not a lower-case sha256"))

/-- The checks of `outcome` and `outcomeReason`. -/
def checkOutcome (outcome outcomeReason : Option Json) : Except Stop Unit := do
  -- `has` looks the outcome up as a property key, so by its text
  let key ← (textOf outcome).mapError Stop.thrown
  throwIf (key ∉ [completed, abandoned, voided])
    (violation (lit "declares an outcome outside the closed vocabulary"))
  throwIf (isString completed outcome = true ∧ isNull outcomeReason = false)
    (violation (lit "carries an outcomeReason where its outcome allows none"))
  throwIf (isString abandoned outcome = true ∧ isNonEmptyString outcomeReason = false)
    (violation (lit "was stopped by the team without saying why"))
  throwIf (isString voided outcome = true ∧
      [VoidReason.hiddenOwnerHelp, .nonTeamParticipant, .mutatedEvidence].all
        (fun reason => !isString reason.name outcomeReason) = true)
    (violation (lit "names a falsification this protocol never declared"))

/-- `validateShape` -/
def validateShape (record : Members) : Except Stop Unit := do
  refuseFirst (ownOrder record) (fun p => !recordFields.contains p.1) fun p =>
    violation (lit "carries the undeclared key " ++ p.1)
  -- a field that is there with the value null is not omitted
  refuseFirst recordFields (fun field => (record.lookup field).isNone) fun field =>
    violation (lit "omits the declared field " ++ field)
  throwIf (isInteger 1 (record.lookup (lit "schemaVersion")) = false)
    (violation (lit "declares a schemaVersion this checker does not know"))
  throwIf (isNonEmptyString (record.lookup (lit "runId")) = false)
    (violation (lit "carries no usable runId"))
  throwIf (isNonEmptyString (record.lookup (lit "teamId")) = false)
    (violation (lit "carries no usable teamId, the identity the count is taken over"))
  throwIf (isNonEmptyString (record.lookup (lit "payloadVersion")) = false)
    (violation (lit "carries no usable payloadVersion"))
  let participantKind := record.lookup (lit "participantKind")
  -- two lists: the one participant that counts and those that never do
  throwIf (isNonEmptyString participantKind = false ∨
      (isString acceptedParticipant participantKind = false ∧
        neverCounted.any (fun kind => isString kind participantKind) = false))
    (violation (lit "declares a participantKind this protocol does not recognise"))
  throwIf (isWholeCount (record.lookup (lit "ownerHelpCount")) = false)
    (violation (lit "carries an ownerHelpCount that is not a whole count of zero or more"))
  -- the nested values come last, in the order of the record
  checkHelpEvents (record.lookup (lit "helpEvents"))
  checkEvidence (record.lookup (lit "evidence"))
  checkOutcome (record.lookup (lit "outcome")) (record.lookup (lit "outcomeReason"))

/-! ## The decision -/

/-- The help events of a record of the shape. -/
def eventsOf (record : Members) : List Json :=
  (helpEvents? (record.lookup (lit "helpEvents"))).getD []

/-- `hiddenHelp`: the code and the detail of what is hidden. -/
def hiddenHelp (record : Members) : Option (String × JsString) :=
  let events := eventsOf record
  let omitted := events.flatMap fun event =>
    helpEventFields.filter fun field => !isNonEmptyString (event.members.lookup field)
  match omitted with
  -- the first event that omits a field, and its first such field
  | field :: _ => some ("HELP_EVENT_OMITTED", lit "a help event omits the required field " ++ field)
  | [] =>
      if isInteger events.length (record.lookup (lit "ownerHelpCount")) = false then
        some ("HELP_COUNT_CONTRADICTION",
          lit "the ownerHelpCount does not agree with the " ++ lit (toString events.length) ++
            lit " help event(s) recorded beside it")
      else none

/-- The declared keys of an object, in the order they are declared in. -/
def order (members : Members) (fields : List JsString) : Members :=
  fields.filterMap fun field => (members.lookup field).map fun v => (field, v)

/-- `canonicalRecordBytes`, as a text. -/
def canonicalRecordText (record : Members) : List Char :=
  let canonical := (order record recordFields).map fun p =>
    if p.1 = lit "helpEvents" then
      (p.1, Json.arr ((eventsOf record).map fun event =>
        .obj (order event.members helpEventFields)))
    else if p.1 = lit "evidence" then (p.1, .obj (order p.2.members evidenceFields))
    else p
  Json.indented 0 (.obj canonical) ++ ['\n']

/-- What the transcript says of a record. -/
structure Entry where
  runId : Option Json
  teamId : Option Json
  outcome : Option Json
  disposition : Disposition
  ownerHelpCount : Option Json
  helpEventCount : ℕ
  evidenceDigestVerified : Bool
  recordDigest : JsString

/-- The string a value is. -/
def stringOf : Option Json → JsString
  | some (.str s) => s
  | _ => []

section Decide

variable (sha256 : ByteArray → JsString) (recordText : JsString → Option (List Char))
  (evidenceBytes : JsString → JsString → Option ByteArray)

/-- `readRecord` -/
def readRecord (recordPath : JsString) : Except Stop Members :=
  match recordText recordPath with
  | none =>
      .error (.fail "RECORD_UNREADABLE" none
        (lit "a run record could not be read at the path supplied"))
  | some text =>
      match jsonParse text with
      | none =>
          .error (.fail "RECORD_UNREADABLE" none
            (lit "a run record file does not decode as JSON"))
      | some value =>
          -- an array is no record
          match ordinaryObject? (some value) with
          | none =>
              .error (.fail "RECORD_UNREADABLE" none
                (lit "a run record must decode to an ordinary object"))
          | some record => .ok record

/-- `evidenceMatches`: the evidence is looked for beside the record. -/
def evidenceMatches (recordPath : JsString) (record : Members) : Except Stop Bool :=
  let evidence := ((record.lookup (lit "evidence")).map Json.members).getD []
  match evidenceBytes recordPath (stringOf (evidence.lookup (lit "path"))) with
  | none =>
      .error (.fail "EVIDENCE_UNREADABLE" none
        (lit "the evidence file a record points at could not be read"))
  | some bytes => .ok (isString (sha256 bytes) (evidence.lookup (lit "sha256")))

/-- Whether the participant is of a kind that is never counted. -/
def isNonTeam (record : Members) : Bool :=
  neverCounted.any fun kind => isString kind (record.lookup (lit "participantKind"))

/-- The ground a void record names. -/
def voidReason? (record : Members) : Option VoidReason :=
  [VoidReason.hiddenOwnerHelp, .nonTeamParticipant, .mutatedEvidence].find? fun reason =>
    isString reason.name (record.lookup (lit "outcomeReason"))

/-- Whether the fields of a record show a ground. -/
def shows (record : Members) (evidenceDigestVerified : Bool) : VoidReason → Bool
  | .hiddenOwnerHelp => (hiddenHelp record).isSome
  | .nonTeamParticipant => isNonTeam record
  | .mutatedEvidence => !evidenceDigestVerified

/-- The disposition of a void record: the checker looks rather than taking its word for it. -/
def voidDisposition (record : Members) (evidenceDigestVerified : Bool) : Except Stop Disposition :=
  match (voidReason? record).filter (shows record evidenceDigestVerified) with
  | some reason => .ok (.void reason)
  | none =>
      .error (.fail "OUTCOME_REASON_INCOHERENT" none
        (lit "a run record declares itself falsified by " ++
          stringOf (record.lookup (lit "outcomeReason")) ++
          lit ", which its own fields do not show"))

/-- The disposition of a record that claims its run happened as recorded. -/
def runDisposition (record : Members) (evidenceDigestVerified : Bool) : Except Stop Disposition :=
  if isNonTeam record then
    .error (.fail "PARTICIPANT_NEVER_COUNTED" (some (.void .nonTeamParticipant))
      (lit "the record declares participantKind \"" ++
        stringOf (record.lookup (lit "participantKind")) ++ lit "\", which is never counted"))
  else
    -- the reasons that void a record come before what it says of itself
    match hiddenHelp record with
    | some (code, detail) => .error (.fail code (some (.void .hiddenOwnerHelp)) detail)
    | none =>
        if evidenceDigestVerified = false then
          .error (.fail "EVIDENCE_DIGEST_MISMATCH" (some (.void .mutatedEvidence))
            (lit "the evidence bytes do not hash to the digest the record declares"))
        -- whatever outcome is not this string is decided as completed
        else if isString abandoned (record.lookup (lit "outcome")) then .ok .notAcceptedAbandoned
        else if isInteger 0 (record.lookup (lit "ownerHelpCount")) then .ok .accepted
        else .ok .observedHelp

/-- The disposition of a record of the shape. -/
def dispositionOf (record : Members) (evidenceDigestVerified : Bool) : Except Stop Disposition :=
  if isString voided (record.lookup (lit "outcome")) then
    voidDisposition record evidenceDigestVerified
  else runDisposition record evidenceDigestVerified

/-- `decide` -/
def decide (recordPath : JsString) : Except Stop Entry := do
  let record ← readRecord recordText recordPath
  validateShape record
  -- the evidence is read once the shape of the record is known
  let evidenceDigestVerified ← evidenceMatches sha256 evidenceBytes recordPath record
  let disposition ← dispositionOf record evidenceDigestVerified
  return {
    runId := record.lookup (lit "runId")
    teamId := record.lookup (lit "teamId")
    outcome := record.lookup (lit "outcome")
    disposition
    ownerHelpCount := record.lookup (lit "ownerHelpCount")
    helpEventCount := (eventsOf record).length
    evidenceDigestVerified
    recordDigest := sha256 (String.ofList (canonicalRecordText record)).toUTF8 }

/-- The transcript, as far as it is not constant. -/
structure Transcript where
  recordsSupplied : ℕ
  records : List Entry

/-- The entries that are accepted. -/
def Transcript.accepted (t : Transcript) : List Entry :=
  t.records.filter fun entry => entry.disposition = .accepted

/-- The teams that are counted. -/
def Transcript.distinctTeams (t : Transcript) : List JsString :=
  (t.accepted.map fun entry => stringOf entry.teamId).dedup

/-- The paths on the command line that are not blank. -/
def recordPaths (args : List JsString) : List JsString := args.filter isNonBlank

/-- The checker on its command line. -/
def check (args : List JsString) : Except Stop Transcript := do
  throwIf (recordPaths args = [])
    (Stop.fail "MISSING_ARGUMENT" none (lit ("no run record was supplied. usage: node " ++
      "tools/check-external-consumer-run-record.mjs <run-record.json> [<run-record.json> ...]")))
  let records ← (recordPaths args).mapM (decide sha256 recordText evidenceBytes)
  return { recordsSupplied := (recordPaths args).length, records }

end Decide

/-! ## What passes the checks -/

/-- A value is a string when it is that string. -/
theorem isString_eq_true {s : JsString} {v : Option Json} :
    isString s v = true ↔ v = some (.str s) := by
  unfold isString
  split
  · next t => simp
  · next h => exact ⟨nofun, fun hv => absurd hv (h s)⟩

/-- A value is `null` when it is there and `null`. -/
theorem isNull_eq_true {v : Option Json} : isNull v = true ↔ v = some .null := by
  unfold isNull
  split
  · simp
  · next h => exact ⟨nofun, fun hv => absurd hv h⟩

/-- A value is an integer when it is a safe one of that value. -/
theorem isInteger_eq_true {n : ℤ} {v : Option Json} :
    isInteger n v = true ↔ ∃ x, v = some (.num x) ∧ x.safeInteger? = some n := by
  unfold isInteger
  split
  · next x => simp
  · next h => exact ⟨nofun, fun ⟨x, hv, _⟩ => absurd hv (h x)⟩

/-- An ordinary object has its members. -/
theorem ordinaryObject?_eq_some {v : Option Json} {m : Members} :
    ordinaryObject? v = some m ↔ v = some (.obj m) := by
  unfold ordinaryObject?
  split
  · next m' => simp
  · next h => exact ⟨nofun, fun hv => absurd hv (h m)⟩

/-- The help events are the elements of an array. -/
theorem helpEvents?_eq_some {v : Option Json} {l : List Json} :
    helpEvents? v = some l ↔ v = some (.arr l) := by
  unfold helpEvents?
  split
  · next l' => simp
  · next h => exact ⟨nofun, fun hv => absurd hv (h l)⟩

/-- A record of the shape, as far as acceptance rests on it. -/
structure Shaped (record : Members) : Prop where
  participantKind : isString acceptedParticipant (record.lookup (lit "participantKind")) = true ∨
    isNonTeam record = true
  helpEvents : ∃ events, record.lookup (lit "helpEvents") = some (.arr events)
  evidence : ∃ evidence file, record.lookup (lit "evidence") = some (.obj evidence) ∧
    evidence.lookup (lit "path") = some (.str file)
  outcome : ∃ key ∈ [completed, abandoned, voided],
    textOf (record.lookup (lit "outcome")) = .ok key
  outcomeReason : record.lookup (lit "outcome") = some (.str completed) →
    record.lookup (lit "outcomeReason") = some .null

/-- Naming an error leaves the results. -/
theorem mapError_eq_ok {α : Type} {r : Except NativeError α} {a : α} :
    r.mapError Stop.thrown = .ok a ↔ r = .ok a := by
  cases r with
  | error e => exact ⟨nofun, nofun⟩
  | ok b => exact ⟨fun h => congrArg _ (Except.ok.inj h), fun h => congrArg _ (Except.ok.inj h)⟩

/-- Evidence that passes names a file. -/
theorem path_of_checkEvidence {evidence : Option Json} {u : Unit}
    (h : checkEvidence evidence = .ok u) :
    ∃ members file, evidence = some (.obj members) ∧
      members.lookup (lit "path") = some (.str file) := by
  unfold checkEvidence at h
  split at h
  · cases h
  next members hmembers =>
    simp only [bind_eq_ok, throwIf_eq_ok] at h
    obtain ⟨-, -, -, hpath, -⟩ := h
    refine ⟨members, ?_⟩
    unfold isNonEmptyString at hpath
    split at hpath
    · next file hfile => exact ⟨file, ordinaryObject?_eq_some.mp hmembers, hfile⟩
    · exact absurd rfl hpath

/-- An outcome that passes is one of the three, and a completed one has no reason. -/
theorem outcome_of_checkOutcome {outcome outcomeReason : Option Json} {u : Unit}
    (h : checkOutcome outcome outcomeReason = .ok u) :
    (∃ key ∈ [completed, abandoned, voided], textOf outcome = .ok key) ∧
      (outcome = some (.str completed) → outcomeReason = some .null) := by
  simp only [checkOutcome, bind_eq_ok, throwIf_eq_ok, mapError_eq_ok, Decidable.not_not] at h
  obtain ⟨key, htext, -, hkey, -, hcompleted, -⟩ := h
  refine ⟨⟨key, hkey, htext⟩, fun houtcome => ?_⟩
  rw [houtcome, isString_eq_true] at hcompleted
  by_contra hreason
  exact hcompleted ⟨rfl, Bool.eq_false_iff.mpr fun hnull => hreason (isNull_eq_true.mp hnull)⟩

/-- A record that passes is shaped. -/
theorem shaped_of_validateShape {record : Members} {u : Unit} (h : validateShape record = .ok u) :
    Shaped record := by
  simp only [validateShape, bind_eq_ok, throwIf_eq_ok] at h
  obtain ⟨-, -, -, -, -, -, -, -, -, -, -, -, -, hkind, -, -, _, hevents, _,
    hevidence, houtcome⟩ := h
  obtain ⟨hkeys, hreason⟩ := outcome_of_checkOutcome houtcome
  refine ⟨?_, ?_, path_of_checkEvidence hevidence, hkeys, hreason⟩
  · rw [not_or, not_and_or] at hkind
    rcases hkind.2 with haccepted | hnever
    · exact .inl (Bool.eq_true_of_not_eq_false haccepted)
    · exact .inr (Bool.eq_true_of_not_eq_false hnever)
  · unfold checkHelpEvents at hevents
    split at hevents
    · cases hevents
    next events hsome => exact ⟨events, helpEvents?_eq_some.mp hsome⟩

/-! ## Acceptance -/

section Acceptance

variable (sha256 : ByteArray → JsString) (recordText : JsString → Option (List Char))
  (evidenceBytes : JsString → JsString → Option ByteArray)

/-- What a record has to say of a run for it to be accepted. -/
structure Acceptable (recordPath : JsString) (record : Members) : Prop where
  outcome : record.lookup (lit "outcome") = some (.str completed)
  outcomeReason : record.lookup (lit "outcomeReason") = some .null
  participantKind : record.lookup (lit "participantKind") = some (.str acceptedParticipant)
  ownerHelpCount : ∃ n, record.lookup (lit "ownerHelpCount") = some (.num n) ∧
    n.safeInteger? = some 0
  helpEvents : record.lookup (lit "helpEvents") = some (.arr [])
  evidence : ∃ evidence file bytes, record.lookup (lit "evidence") = some (.obj evidence) ∧
    evidence.lookup (lit "path") = some (.str file) ∧
    evidenceBytes recordPath file = some bytes ∧
    evidence.lookup (lit "sha256") = some (.str (sha256 bytes))

/-- Acceptance is sound on a command line: in a transcript an entry is accepted, and a team counted,
only for an acceptable record, and no rearrangement or repetition of the paths changes the count. -/
def AcceptanceSound (args : List JsString) : Prop :=
  (∀ t, check sha256 recordText evidenceBytes args = .ok t →
    List.Forall₂ (fun path entry => entry.disposition = .accepted →
      ∃ record, readRecord recordText path = .ok record ∧
        Acceptable sha256 evidenceBytes path record) (recordPaths args) t.records ∧
    ∀ team ∈ t.distinctTeams, ∃ path ∈ recordPaths args, ∃ record,
      readRecord recordText path = .ok record ∧ Acceptable sha256 evidenceBytes path record ∧
        stringOf (record.lookup (lit "teamId")) = team) ∧
  ∀ args', (∀ path, path ∈ recordPaths args' ↔ path ∈ recordPaths args) →
    ((∃ t, check sha256 recordText evidenceBytes args' = .ok t) ↔
      ∃ t, check sha256 recordText evidenceBytes args = .ok t) ∧
    ∀ t t', check sha256 recordText evidenceBytes args = .ok t →
      check sha256 recordText evidenceBytes args' = .ok t' →
      t'.distinctTeams.length = t.distinctTeams.length

/-- A record that is not refused: of the shape, with evidence that can be read, and void for a
ground it shows or else showing none. -/
def Stands (recordPath : JsString) : Prop :=
  ∃ record, readRecord recordText recordPath = .ok record ∧ validateShape record = .ok () ∧
    ∃ verified, evidenceMatches sha256 evidenceBytes recordPath record = .ok verified ∧
      if isString voided (record.lookup (lit "outcome")) = true then
        ∃ reason, voidReason? record = some reason ∧ shows record verified reason = true
      else isNonTeam record = false ∧ hiddenHelp record = none ∧ verified = true

/-- A record without help whose outcome is no string. -/
def CoercesOutcome (recordPath : JsString) : Prop :=
  ∃ record, readRecord recordText recordPath = .ok record ∧
    (∀ s, record.lookup (lit "outcome") ≠ some (.str s)) ∧
    isInteger 0 (record.lookup (lit "ownerHelpCount")) = true

variable {sha256 recordText evidenceBytes} {recordPath : JsString} {record : Members}

/-- The entry of a record that is not refused. -/
theorem decide_eq_ok {entry : Entry}
    (h : decide sha256 recordText evidenceBytes recordPath = .ok entry) :
    ∃ record verified, readRecord recordText recordPath = .ok record ∧
      validateShape record = .ok () ∧
      evidenceMatches sha256 evidenceBytes recordPath record = .ok verified ∧
      dispositionOf record verified = .ok entry.disposition ∧
      entry.teamId = record.lookup (lit "teamId") := by
  simp only [decide, bind_eq_ok] at h
  obtain ⟨record, hread, _, hshape, verified, hmatches, disposition, hdisposition, h⟩ := h
  obtain rfl := Except.ok.inj h
  exact ⟨record, verified, hread, hshape, hmatches, hdisposition, rfl⟩

/-- A voided run is decided when its reason shows. -/
theorem isOk_voidDisposition {verified : Bool} :
    (∃ disposition, voidDisposition record verified = .ok disposition) ↔
      ∃ reason, voidReason? record = some reason ∧ shows record verified reason = true := by
  unfold voidDisposition
  cases hreason : (voidReason? record).filter (shows record verified) with
  | none =>
    refine ⟨fun ⟨_, h⟩ => (nomatch h), fun ⟨reason, hsome, hshows⟩ => ?_⟩
    rw [hsome, Option.filter_some, if_pos hshows] at hreason
    cases hreason
  | some reason =>
    obtain ⟨hsome, hshows⟩ := Option.filter_eq_some_iff.mp hreason
    exact ⟨fun _ => ⟨reason, hsome, hshows⟩, fun _ => ⟨_, rfl⟩⟩

/-- Any other run is decided when it is a team's, hides no help and is verified. -/
theorem isOk_runDisposition {verified : Bool} :
    (∃ disposition, runDisposition record verified = .ok disposition) ↔
      isNonTeam record = false ∧ hiddenHelp record = none ∧ verified = true := by
  unfold runDisposition
  cases hteam : isNonTeam record with
  | true => simp
  | false =>
    cases hhelp : hiddenHelp record with
    | some help => simp
    | none =>
      cases verified with
      | false => simp
      | true =>
        refine ⟨fun _ => ⟨rfl, rfl, rfl⟩, fun _ => ?_⟩
        simp only [Bool.false_eq_true, if_false, reduceCtorEq]
        split_ifs <;> exact ⟨_, rfl⟩

/-- A record is decided by the one rule or by the other. -/
theorem isOk_dispositionOf {verified : Bool} :
    (∃ disposition, dispositionOf record verified = .ok disposition) ↔
      if isString voided (record.lookup (lit "outcome")) = true then
        ∃ reason, voidReason? record = some reason ∧ shows record verified reason = true
      else isNonTeam record = false ∧ hiddenHelp record = none ∧ verified = true := by
  unfold dispositionOf
  split_ifs
  · exact isOk_voidDisposition
  · exact isOk_runDisposition

/-- The records that are not refused are those that stand. -/
theorem stands_iff :
    (∃ entry, decide sha256 recordText evidenceBytes recordPath = .ok entry) ↔
      Stands sha256 recordText evidenceBytes recordPath := by
  constructor
  · rintro ⟨entry, h⟩
    obtain ⟨record, verified, hread, hshape, hmatches, hdisposition, -⟩ := decide_eq_ok h
    exact ⟨record, hread, hshape, verified, hmatches, isOk_dispositionOf.mp ⟨_, hdisposition⟩⟩
  · rintro ⟨record, hread, hshape, verified, hmatches, hstands⟩
    obtain ⟨disposition, hdisposition⟩ := isOk_dispositionOf.mpr hstands
    simp only [decide, bind_eq_ok]
    exact ⟨_, record, hread, (), hshape, verified, hmatches, disposition, hdisposition, rfl⟩

/-- What an accepted disposition says of a record. -/
theorem of_runDisposition_accepted {verified : Bool}
    (h : runDisposition record verified = .ok .accepted) :
    isString abandoned (record.lookup (lit "outcome")) = false ∧ isNonTeam record = false ∧
      hiddenHelp record = none ∧ verified = true ∧
      isInteger 0 (record.lookup (lit "ownerHelpCount")) = true := by
  unfold runDisposition at h
  cases hteam : isNonTeam record with
  | true => rw [if_pos hteam] at h; cases h
  | false =>
    rw [if_neg (Bool.eq_false_iff.mp hteam)] at h
    cases hhelp : hiddenHelp record with
    | some help => rw [hhelp] at h; cases h
    | none =>
      simp only [hhelp] at h
      split_ifs at h with hverified habandoned hcount
      · cases h
      · exact ⟨Bool.eq_false_iff.mpr habandoned, rfl, rfl, Bool.eq_true_of_not_eq_false hverified,
          hcount⟩
      · cases h

/-- A void record is never accepted. -/
theorem voidDisposition_ne_accepted {verified : Bool} :
    voidDisposition record verified ≠ .ok .accepted := by
  unfold voidDisposition
  split <;> exact nofun

/-- An accepted run had no help of an owner. -/
theorem isInteger_zero_of_accepted {verified : Bool}
    (h : dispositionOf record verified = .ok .accepted) :
    isInteger 0 (record.lookup (lit "ownerHelpCount")) = true := by
  unfold dispositionOf at h
  split_ifs at h
  · exact absurd h voidDisposition_ne_accepted
  · exact (of_runDisposition_accepted h).2.2.2.2

/-- A help count of zero that the record does not contradict leaves no help event. -/
theorem eventsOf_eq_nil (hhelp : hiddenHelp record = none)
    (hcount : isInteger 0 (record.lookup (lit "ownerHelpCount")) = true) : eventsOf record = [] := by
  obtain ⟨n, hn, hzero⟩ := isInteger_eq_true.mp hcount
  simp only [hiddenHelp] at hhelp
  split at hhelp
  · cases hhelp
  · split_ifs at hhelp with hagrees
    obtain ⟨m, hm, hlength⟩ := isInteger_eq_true.mp (Bool.eq_true_of_not_eq_false hagrees)
    obtain rfl : n = m := Json.num.inj (Option.some.inj (hn.symm.trans hm))
    have hzero_length : (0 : ℤ) = (eventsOf record).length :=
      Option.some.inj (hzero.symm.trans hlength)
    exact List.length_eq_zero_iff.mp (by exact_mod_cast hzero_length.symm)

/-- An accepted record of the shape is acceptable if its outcome is a string. -/
theorem acceptable_of_accepted {verified : Bool} (hshape : Shaped record)
    (hmatches : evidenceMatches sha256 evidenceBytes recordPath record = .ok verified)
    (h : dispositionOf record verified = .ok .accepted)
    (houtcome : ∃ s, record.lookup (lit "outcome") = some (.str s)) :
    Acceptable sha256 evidenceBytes recordPath record := by
  unfold dispositionOf at h
  split_ifs at h with hvoid
  · exact absurd h voidDisposition_ne_accepted
  obtain ⟨habandoned, hteam, hhelp, rfl, hcount⟩ := of_runDisposition_accepted h
  -- the text of a string is the string, so the key in the table is the outcome
  have hcompleted : record.lookup (lit "outcome") = some (.str completed) := by
    obtain ⟨s, hs⟩ := houtcome
    obtain ⟨key, hkey, htext⟩ := hshape.outcome
    rw [hs] at htext habandoned hvoid ⊢
    obtain rfl : s = key := Except.ok.inj htext
    simp only [List.mem_cons, List.not_mem_nil, or_false] at hkey
    rcases hkey with rfl | rfl | rfl
    · rfl
    · exact absurd (isString_eq_true.mpr rfl) (Bool.eq_false_iff.mp habandoned)
    · exact absurd (isString_eq_true.mpr rfl) hvoid
  refine ⟨hcompleted, hshape.outcomeReason hcompleted, ?_, isInteger_eq_true.mp hcount, ?_, ?_⟩
  · rcases hshape.participantKind with haccepted | hnever
    · exact isString_eq_true.mp haccepted
    · exact absurd hnever (Bool.eq_false_iff.mp hteam)
  · obtain ⟨events, hevents⟩ := hshape.helpEvents
    have hnil := eventsOf_eq_nil hhelp hcount
    rw [eventsOf, hevents] at hnil
    obtain rfl : events = [] := hnil
    exact hevents
  · obtain ⟨evidence, file, hevidence, hfile⟩ := hshape.evidence
    simp only [evidenceMatches, hevidence, Option.map_some, Option.getD_some, Json.members, hfile,
      stringOf] at hmatches
    split at hmatches
    · cases hmatches
    next bytes hbytes =>
      exact ⟨evidence, file, bytes, hevidence, hfile, hbytes,
        isString_eq_true.mp (Except.ok.inj hmatches)⟩

/-- Without help, a record that stands and whose outcome is no string is accepted. -/
theorem accepted_of_coercesOutcome
    (hstands : Stands sha256 recordText evidenceBytes recordPath)
    (hcoerces : CoercesOutcome recordText recordPath) {entry : Entry}
    (h : decide sha256 recordText evidenceBytes recordPath = .ok entry) :
    entry.disposition = .accepted := by
  obtain ⟨record, hread, -, verified, hmatches, hground⟩ := hstands
  obtain ⟨_, hread', houtcome, hcount⟩ := hcoerces
  obtain rfl := Except.ok.inj (hread.symm.trans hread')
  -- none of the comparisons with a name holds of a value that is no string
  have hne : ∀ s, isString s (record.lookup (lit "outcome")) = false := fun s =>
    Bool.eq_false_iff.mpr fun hs => houtcome s (isString_eq_true.mp hs)
  rw [hne voided, if_neg Bool.false_ne_true] at hground
  obtain ⟨hteam, hhelp, rfl⟩ := hground
  obtain ⟨_, _, hread', -, hmatches', hdisposition, -⟩ := decide_eq_ok h
  obtain rfl := Except.ok.inj (hread.symm.trans hread')
  obtain rfl := Except.ok.inj (hmatches.symm.trans hmatches')
  simp only [dispositionOf, hne voided, runDisposition, hteam, hhelp, hne abandoned, hcount,
    Bool.false_eq_true, if_false, if_true, reduceCtorEq] at hdisposition
  exact (Except.ok.inj hdisposition).symm

variable {args : List JsString} {t : Transcript}

/-- A transcript is printed when every record is decided, and has their entries in order. -/
theorem check_eq_ok : check sha256 recordText evidenceBytes args = .ok t ↔
    recordPaths args ≠ [] ∧ t.recordsSupplied = (recordPaths args).length ∧
      List.Forall₂ (fun path entry => decide sha256 recordText evidenceBytes path = .ok entry)
        (recordPaths args) t.records := by
  simp only [check, bind_eq_ok, throwIf_eq_ok, mapM_eq_ok]
  constructor
  · rintro ⟨_, hne, records, hrecords, h⟩
    obtain rfl := Except.ok.inj h
    exact ⟨hne, rfl, hrecords⟩
  · rintro ⟨hne, hsupplied, hrecords⟩
    exact ⟨(), hne, t.records, hrecords, by rw [← hsupplied]; rfl⟩

/-- A transcript is printed when there are records and all of them stand. -/
theorem exists_check_eq_ok_iff : (∃ t, check sha256 recordText evidenceBytes args = .ok t) ↔
    recordPaths args ≠ [] ∧
      ∀ path ∈ recordPaths args, Stands sha256 recordText evidenceBytes path := by
  simp only [check_eq_ok]
  constructor
  · rintro ⟨t, hne, -, hrecords⟩
    refine ⟨hne, fun path hpath => stands_iff.mp ?_⟩
    obtain ⟨entry, -, h⟩ := exists_of_forall₂_left hrecords hpath
    exact ⟨entry, h⟩
  · rintro ⟨hne, hstands⟩
    obtain ⟨records, hrecords⟩ := exists_forall₂ fun path hpath =>
      stands_iff.mpr (hstands path hpath)
    exact ⟨⟨_, records⟩, hne, rfl, hrecords⟩

/-- The teams counted are those of the accepted records. -/
theorem mem_distinctTeams (h : check sha256 recordText evidenceBytes args = .ok t)
    {team : JsString} : team ∈ t.distinctTeams ↔ ∃ path ∈ recordPaths args, ∃ entry,
      decide sha256 recordText evidenceBytes path = .ok entry ∧ entry.disposition = .accepted ∧
        stringOf entry.teamId = team := by
  obtain ⟨-, -, hrecords⟩ := check_eq_ok.mp h
  simp only [Transcript.distinctTeams, Transcript.accepted, List.mem_dedup, List.mem_map,
    List.mem_filter, decide_eq_true_eq]
  constructor
  · rintro ⟨entry, ⟨hentry, haccepted⟩, hteam⟩
    obtain ⟨path, hpath, hdecide⟩ := exists_of_forall₂_left hrecords.flip hentry
    exact ⟨path, hpath, entry, hdecide, haccepted, hteam⟩
  · rintro ⟨path, hpath, entry, hdecide, haccepted, hteam⟩
    obtain ⟨entry', hentry, hdecide'⟩ := exists_of_forall₂_left hrecords hpath
    obtain rfl := Except.ok.inj (hdecide.symm.trans hdecide')
    exact ⟨entry, ⟨hentry, haccepted⟩, hteam⟩

/-- Command lines with the same paths, in any order and any number, count the same teams. -/
theorem check_of_mem_iff {args' : List JsString}
    (hmem : ∀ path, path ∈ recordPaths args' ↔ path ∈ recordPaths args) :
    ((∃ t, check sha256 recordText evidenceBytes args' = .ok t) ↔
      ∃ t, check sha256 recordText evidenceBytes args = .ok t) ∧
    ∀ t t', check sha256 recordText evidenceBytes args = .ok t →
      check sha256 recordText evidenceBytes args' = .ok t' →
      t'.distinctTeams.length = t.distinctTeams.length := by
  constructor
  · simp only [exists_check_eq_ok_iff, ne_eq, List.eq_nil_iff_forall_not_mem, hmem]
  · intro t t' h h'
    have hteams : ∀ team, team ∈ t'.distinctTeams ↔ team ∈ t.distinctTeams := fun team => by
      simp only [mem_distinctTeams h, mem_distinctTeams h', hmem]
    exact ((List.perm_ext_iff_of_nodup (List.nodup_dedup _) (List.nodup_dedup _)).mpr
      hteams).length_eq

/-- An accepted record has no outcome that is taken for a string. -/
theorem acceptable_of_decide (hnot : ¬CoercesOutcome recordText recordPath) {entry : Entry}
    (h : decide sha256 recordText evidenceBytes recordPath = .ok entry)
    (haccepted : entry.disposition = .accepted) :
    ∃ record, readRecord recordText recordPath = .ok record ∧
      Acceptable sha256 evidenceBytes recordPath record ∧
      entry.teamId = record.lookup (lit "teamId") := by
  obtain ⟨record, verified, hread, hshape, hmatches, hdisposition, hteam⟩ := decide_eq_ok h
  rw [haccepted] at hdisposition
  refine ⟨record, hread, acceptable_of_accepted (shaped_of_validateShape hshape) hmatches
    hdisposition ?_, hteam⟩
  by_contra hstring
  exact hnot ⟨record, hread, fun s hs => hstring ⟨s, hs⟩,
    isInteger_zero_of_accepted hdisposition⟩

/-- Where no outcome is taken for a string, acceptance is sound. -/
theorem acceptanceSound_of_not_coercesOutcome
    (hnot : ∀ path ∈ recordPaths args, ¬CoercesOutcome recordText path) :
    AcceptanceSound sha256 recordText evidenceBytes args := by
  refine ⟨fun t h => ⟨?_, ?_⟩, fun args' => check_of_mem_iff⟩
  · obtain ⟨-, -, hrecords⟩ := check_eq_ok.mp h
    refine ((List.forall₂_and_left _ _).mpr ⟨hnot, hrecords⟩).imp ?_
    rintro path entry ⟨hpath, hdecide⟩ haccepted
    obtain ⟨record, hread, hacceptable, -⟩ := acceptable_of_decide hpath hdecide haccepted
    exact ⟨record, hread, hacceptable⟩
  · intro team hteam
    obtain ⟨path, hpath, entry, hdecide, haccepted, rfl⟩ := (mem_distinctTeams h).mp hteam
    obtain ⟨record, hread, hacceptable, hteam⟩ :=
      acceptable_of_decide (hnot path hpath) hdecide haccepted
    exact ⟨path, hpath, record, hread, hacceptable, by rw [hteam]⟩

/-- Where all records stand and one outcome is taken for a string, acceptance is not sound. -/
theorem not_acceptanceSound (hstands : ∀ path ∈ recordPaths args,
    Stands sha256 recordText evidenceBytes path) (hpath : recordPath ∈ recordPaths args)
    (hcoerces : CoercesOutcome recordText recordPath) :
    ¬AcceptanceSound sha256 recordText evidenceBytes args := by
  intro hsound
  obtain ⟨t, h⟩ := exists_check_eq_ok_iff.mpr ⟨List.ne_nil_of_mem hpath, hstands⟩
  obtain ⟨-, -, hrecords⟩ := check_eq_ok.mp h
  have hboth := hrecords.mp (fun _ _ hdecide haccepts => And.intro hdecide haccepts)
    (hsound.1 t h).1
  obtain ⟨entry, -, hdecide, haccepts⟩ := exists_of_forall₂_left hboth hpath
  obtain ⟨record, hread, hacceptable⟩ :=
    haccepts (accepted_of_coercesOutcome (hstands recordPath hpath) hcoerces hdecide)
  obtain ⟨_, hread', houtcome, -⟩ := hcoerces
  obtain rfl := Except.ok.inj (hread.symm.trans hread')
  exact houtcome completed hacceptable.outcome

variable (sha256 recordText evidenceBytes args)

/-- Acceptance is sound on a command line exactly when some record on it is refused or no record on
it passes an array for its outcome. -/
theorem acceptanceSound_iff : AcceptanceSound sha256 recordText evidenceBytes args ↔
    (∃ path ∈ recordPaths args, ¬Stands sha256 recordText evidenceBytes path) ∨
      ∀ path ∈ recordPaths args, ¬CoercesOutcome recordText path := by
  constructor
  · intro hsound
    by_contra hneither
    push Not at hneither
    obtain ⟨hstands, path, hpath, hcoerces⟩ := hneither
    exact not_acceptanceSound hstands hpath hcoerces hsound
  · rintro (⟨path, hpath, hrefused⟩ | hnot)
    · have hnone : ¬∃ t, check sha256 recordText evidenceBytes args = .ok t := fun h =>
        hrefused ((exists_check_eq_ok_iff.mp h).2 path hpath)
      exact ⟨fun t h => absurd ⟨t, h⟩ hnone, fun args' => check_of_mem_iff⟩
    · exact acceptanceSound_of_not_coercesOutcome hnot

end Acceptance

/-! ## An outcome in an array -/

/-- A result that is there is one. -/
theorem eq_ok_of_toOption {ε α : Type} {r : Except ε α} {a : α} (h : r.toOption = some a) :
    r = .ok a := by
  cases r with
  | error e => cases h
  | ok b => exact congrArg Except.ok (Option.some.inj h)

/-- The digest of the empty file. -/
def emptyDigest : JsString :=
  lit "e3b0c44298fc1c149afbf4c8996fb92427ae41e4649b934ca495991b7852b855"

/-- The digests of the empty file and of the record below. -/
def sampleSha256 (bytes : ByteArray) : JsString :=
  if bytes.size = 0 then emptyDigest
  else lit "7f1eb9ff6a4d941f3f8728275423f4401d4f0d3880bf86765d5d8ea20f9d3062"

/-- The record of an abandoned run, with its outcome in an array. -/
@[irreducible]
def arrayOutcomeRecord : Json :=
  .obj [(lit "schemaVersion", .num (.ofInt 1)), (lit "runId", .str (lit "run-1")),
    (lit "teamId", .str (lit "team-1")), (lit "participantKind", .str acceptedParticipant),
    (lit "payloadVersion", .str (lit "1")), (lit "outcome", .arr [.str abandoned]),
    (lit "outcomeReason", .str (lit "no time")), (lit "ownerHelpCount", .num (.ofInt 0)),
    (lit "helpEvents", .arr []),
    (lit "evidence", .obj [(lit "path", .str (lit "evidence.txt")),
      (lit "sha256", .str emptyDigest)])]

/-- A record is read from a text that parses to an object. -/
theorem readRecord_eq_ok {recordText : JsString → Option (List Char)} {recordPath : JsString}
    {text : List Char} {record : Members} (htext : recordText recordPath = some text)
    (h : jsonParse text = some (.obj record)) :
    readRecord recordText recordPath = .ok record := by
  simp only [readRecord, htext, h, ordinaryObject?]

variable {sha256 : ByteArray → JsString} {recordText : JsString → Option (List Char)}
  {evidenceBytes : JsString → JsString → Option ByteArray} {recordPath : JsString}
    {record : Members}

/-- A record that claims its run happened stands if nothing shows that it did not. -/
theorem stands_of_run (hread : readRecord recordText recordPath = .ok record)
    (hshape : (validateShape record).toOption = some ())
    (hmatches : (evidenceMatches sha256 evidenceBytes recordPath record).toOption = some true)
    (hvoid : isString voided (record.lookup (lit "outcome")) = false)
    (hteam : isNonTeam record = false) (hhelp : (hiddenHelp record).isNone = true) :
    Stands sha256 recordText evidenceBytes recordPath := by
  refine ⟨record, hread, eq_ok_of_toOption hshape, true, eq_ok_of_toOption hmatches, ?_⟩
  rw [if_neg (Bool.eq_false_iff.mp hvoid)]
  exact ⟨hteam, Option.isNone_iff_eq_none.mp hhelp, rfl⟩

/-- The sample record is read back from its text. -/
theorem jsonParse_arrayOutcomeRecord : jsonParse arrayOutcomeRecord.stringify =
    some (.obj arrayOutcomeRecord.readBack.members) := by
  rw [jsonParse_stringify (by decide +kernel)]
  unfold arrayOutcomeRecord
  rfl

/-- An abandoned run is accepted, and its team counted, if its outcome is written in an array. -/
theorem not_acceptanceSound_arrayOutcome : ¬AcceptanceSound sampleSha256
    (fun _ => some arrayOutcomeRecord.stringify) (fun _ _ => some ByteArray.empty)
    [lit "run.json"] := by
  have hread : readRecord (fun _ => some arrayOutcomeRecord.stringify) (lit "run.json") =
      .ok arrayOutcomeRecord.readBack.members := readRecord_eq_ok rfl jsonParse_arrayOutcomeRecord
  have hstands : Stands sampleSha256 (fun _ => some arrayOutcomeRecord.stringify)
      (fun _ _ => some ByteArray.empty) (lit "run.json") :=
    stands_of_run hread (by decide +kernel) (by decide +kernel) (by decide +kernel)
      (by decide +kernel) (by decide +kernel)
  have hcoerces : CoercesOutcome (fun _ => some arrayOutcomeRecord.stringify) (lit "run.json") := by
    refine ⟨arrayOutcomeRecord.readBack.members, hread, fun s hs => ?_, by decide +kernel⟩
    have harray : (helpEvents?
      (arrayOutcomeRecord.readBack.members.lookup (lit "outcome"))).isSome = true := by
      decide +kernel
    rw [hs] at harray
    cases harray
  have hpaths : recordPaths [lit "run.json"] = [lit "run.json"] := by decide
  refine not_acceptanceSound (fun path hpath => ?_) (hpaths ▸ List.mem_singleton_self _) hcoerces
  rw [hpaths, List.mem_singleton] at hpath
  rw [hpath]
  exact hstands

end MetaframerKernel.RunRecord
