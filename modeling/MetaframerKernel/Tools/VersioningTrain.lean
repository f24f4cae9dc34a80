import MetaframerKernel.Tools.SemVer

/-!
# The project train

The versions a project may carry lie on a train: a stage and a counter on one version core. The
check of one version against the train, the check of a move from one version to the next, and the
moves that are recommended.

## Main definitions

* `VersioningPolicy`: what the checks read of a policy;
* `versionAgainstTrain`, `transitionViolations`, `recommendedNextVersions`;
* `versioningPolicy`: the policy of the repository.

## Main results

* `versionAgainstTrain_eq_nil_iff`: the versions on the repository's train, by their spelling;
* `transitionViolations_eq_nil_iff`: the moves that are permitted are those recommended.
-/

namespace MetaframerKernel.Versioning

open Js

/-! ## The checks -/

/-- What the checks read of a policy. -/
structure VersioningPolicy where
  /-- `ceiling.maxVersion` -/
  maxVersion : JsString
  /-- `train.stages` -/
  stages : List JsString
  /-- `train.finalVersion` -/
  finalVersion : JsString
  /-- `train.counterMin` -/
  counterMin : ℕ
  /-- `train.buildMetadataAllowed` -/
  buildMetadataAllowed : Bool
  /-- `currentVersion.previousValue` -/
  previousValue : JsString
  /-- `release.authorized` -/
  authorized : Bool
  /-- `authorityBinding.gapClosed` -/
  gapClosed : Bool

/-- `describe(value)`, for an identifier. -/
def describeIdentifier : Identifier Number → JsString
  | .numeric n => naturalText n
  | .alphanumeric s => describe s

/-- `toLowerCase`, for an identifier. -/
def toLowerCase (s : JsString) : JsString :=
  s.map fun u => if u.inRange 'A' 'Z' then u + 32 else u

/-- `0\d` at the start of a text. -/
def startsWithLeadingZero : JsString → Bool
  | zero :: u :: _ => zero.isChar '0' && digitClass u
  | _ => false

/-- `[-.]0\d` somewhere in a text. -/
def hasLeadingZero : JsString → Bool
  | [] => false
  | u :: s => ((u == hyphen || u == dot) && startsWithLeadingZero s) || hasLeadingZero s

/-- `LEADING_ZERO_HINT.test(value)` -/
def leadingZeroHint (value : JsString) : Bool :=
  startsWithLeadingZero value || hasLeadingZero value

/-- A finding, when something is wrong. -/
def findingIf (c : Prop) [Decidable c] (finding : JsString) : List JsString :=
  if c then [finding] else []

/-- What `versionAgainstTrain` finds of the stage and the counter. -/
def positionFindings (version : JsString) (policy : VersioningPolicy) :
    Identifier Number → Identifier Number → List JsString
  | .numeric n, _ =>
      [lit "policy-version-unknown-stage:" ++ version ++ lit " names the stage " ++
        describeIdentifier (.numeric n)]
  | .alphanumeric stage, counter =>
      -- the stage is looked at first: a wrong one hides what is wrong with the counter
      if stage ∉ policy.stages then
        if toLowerCase stage ∈ policy.stages then
          [lit "policy-version-stage-wrong-case:" ++ version ++ lit " spells the stage " ++
            describe stage]
        else
          [lit "policy-version-unknown-stage:" ++ version ++ lit " names the stage " ++
            describe stage]
      else
        match counter with
        | .alphanumeric s =>
            [lit "policy-version-counter-not-numeric:" ++ version ++
              lit " has a non-numeric counter " ++ describe s]
        | .numeric n =>
            findingIf (n < (policy.counterMin : Number))
              (lit "policy-version-counter-below-minimum:" ++ version ++
                lit " counter is under " ++ naturalText policy.counterMin)

/-- What `versionAgainstTrain` finds of a version whose core is that of the train. -/
def prereleaseFindings (version : JsString) (policy : VersioningPolicy)
    (parsed : Version Number) : List JsString :=
  let build := findingIf (parsed.build ≠ [] ∧ policy.buildMetadataAllowed ≠ true)
    (lit "policy-version-build-metadata-refused:" ++ version ++
      lit " carries build metadata, which is ignored for precedence and so destroys the " ++
      lit "one-current-version property")
  match parsed.prerelease with
  -- no pre-release: the terminal version, which is left to a decision of a human
  | [] =>
      findingIf (policy.authorized ≠ true ∨ policy.gapClosed ≠ true)
        (lit "policy-version-terminal-requires-human-completion-decision:" ++ version ++
          lit " is the conceptual terminal version; reaching it needs a fresh explicit human " ++
          lit "completion and release decision, and release authority is false")
  | [_] =>
      build ++ [lit "policy-version-bare-stage-refused:" ++ version ++
        lit " names a bare stage with no counter"]
  | [stage, counter] => build ++ positionFindings version policy stage counter
  | _ =>
      build ++ [lit "policy-version-extra-identifier-refused:" ++ version ++
        lit " carries more identifiers than <stage>.<N>"]

/-- What `versionAgainstTrain` finds of a version beside its precedence and its history. -/
def coreFindings (version : JsString) (policy : VersioningPolicy) (parsed : Version Number) :
    List JsString :=
  match parseSemVer policy.finalVersion with
  | none => [lit "policy-train-final-version-malformed:" ++ describe policy.finalVersion]
  | some final =>
      if parsed.major ≠ final.major ∨ parsed.minor ≠ final.minor ∨ parsed.patch ≠ final.patch then
        [lit "policy-version-off-train-core:" ++ version ++ lit " is not on the " ++
          policy.finalVersion ++ lit " train"]
      else prereleaseFindings version policy parsed

/-- The message of an error. -/
def message : NativeError → JsString
  | .typeError m => m
  | .rangeError m => m

/-- `versionAgainstTrain` -/
def versionAgainstTrain (version : JsString) (policy : VersioningPolicy) : List JsString :=
  match parseSemVer version with
  | none =>
      (lit "policy-version-refused:" ++ describe version ++ lit ":not-valid-semver-2.0.0") ::
        findingIf (leadingZeroHint version = true)
          (lit "policy-version-refused:" ++ version ++ lit ":numeric-identifier-leading-zero")
  | some parsed =>
      -- the ceiling is a value of the policy and may be no version itself
      match comparePrecedence version policy.maxVersion with
      | .error e =>
          [lit "policy-version-uncomparable:" ++ describe version ++ lit ":" ++ message e]
      | .ok precedence =>
          findingIf (precedence = .gt)
              (lit "policy-version-above-ceiling:" ++ version ++ lit " ranks above the ceiling " ++
                policy.maxVersion) ++
            findingIf (version = policy.previousValue)
              (lit "policy-version-is-historical-planning-placeholder:" ++ version ++
                lit " is the preserved planning placeholder and is not on the train") ++
            coreFindings version policy parsed

/-- `dedupe(findings)`: each finding once, where it is first. -/
def dedupe (findings : List JsString) : List JsString :=
  findings.foldl (fun kept finding => if finding ∈ kept then kept else kept ++ [finding]) []

/-- `stages.indexOf(prerelease[0])` -/
def stageIndex (stages : List JsString) (v : Version Number) : ℤ :=
  match v.prerelease.head? with
  | some (.alphanumeric stage) => if stage ∈ stages then stages.idxOf stage else -1
  | _ => -1

/-- `prerelease[1]`, where it is a number. On a version that the train takes it is, or it is
undefined. -/
def counterOf (v : Version Number) : Option Number :=
  match v.prerelease with
  | _ :: .numeric n :: _ => some n
  | _ => none

/-- `left < right`, where undefined is no number. -/
def isBelow (left right : Option Number) : Bool :=
  match left, right with
  | some m, some n => m < n
  | _, _ => false

/-- `counter + 1` -/
def addOne : Number → Number
  | none => ⊤
  | some n => numberOf (n + 1)

/-- What `transitionViolations` finds of a move between two versions on the train. -/
def moveFindings (source target : JsString) (policy : VersioningPolicy)
    (a b : Version Number) : List JsString :=
  let fromStage := stageIndex policy.stages a
  let toStage := stageIndex policy.stages b
  let fromCounter := counterOf a
  let toCounter := counterOf b
  let move := source ++ lit " -> " ++ target
  -- within a stage the counter goes up by one, and a new stage starts at the minimum
  if toStage = fromStage then
    if toCounter = fromCounter then
      [lit "transition-no-op:" ++ move ++ lit " leaves the version unchanged"]
    else if isBelow toCounter fromCounter then
      [lit "transition-counter-backward:" ++ move ++ lit " moves the counter backward"]
    else if isBelow (fromCounter.map addOne) toCounter then
      [lit "transition-counter-jump:" ++ move ++ lit " jumps the counter"]
    else []
  else if toStage < fromStage then
    [lit "transition-stage-backward:" ++ move ++ lit " moves the stage backward"]
  else if fromStage + 1 < toStage then
    [lit "transition-stage-skip:" ++ move ++ lit " skips a stage; a human may, an agent may not"]
  else
    findingIf (toCounter ≠ some (policy.counterMin : Number))
      (lit "transition-stage-counter-not-reset:" ++ move ++ lit " must reset the counter to " ++
        naturalText policy.counterMin)

/-- `transitionViolations`, where `integrity` is what `policyIntegrityViolations` finds of the
policy. -/
def transitionViolations (integrity : List JsString) (source target : JsString)
    (policy : VersioningPolicy) : List JsString :=
  if integrity ≠ [] then dedupe integrity
  else
    match parseSemVer source, parseSemVer target with
    | some a, some b =>
        let findings :=
          (versionAgainstTrain source policy).map (lit "transition-source-refused:" ++ ·) ++
            (versionAgainstTrain target policy).map (lit "transition-target-refused:" ++ ·)
        -- both ends have to be on the train before the move is looked at
        if findings ≠ [] then dedupe findings else dedupe (moveFindings source target policy a b)
    | a, b =>
        dedupe (findingIf (a = none) (lit "transition-source-malformed:" ++ describe source) ++
          findingIf (b = none) (lit "transition-target-malformed:" ++ describe target))

/-- A stage and a counter on a core: `${core}-${stage}.${counter}`. -/
def trainVersion (core stage counter : JsString) : JsString :=
  core ++ hyphen :: (stage ++ dot :: counter)

/-- `recommendedNextVersions` -/
def recommendedNextVersions (version : JsString) (policy : VersioningPolicy) : List JsString :=
  match parseSemVer version with
  | none => []
  | some parsed =>
      if versionAgainstTrain version policy ≠ [] then []
      else
        match parsed.prerelease with
        | .alphanumeric stage :: .numeric counter :: _ =>
            trainVersion policy.finalVersion stage (naturalText (addOne counter)) ::
              (policy.stages[policy.stages.idxOf stage + 1]?).toList.map fun next =>
                trainVersion policy.finalVersion next (naturalText policy.counterMin)
        -- the terminus, where a policy admits it
        | _ => [trainVersion policy.finalVersion (lit "undefined") (lit "NaN")]

/-- `versioning-policy.json` -/
def versioningPolicy : VersioningPolicy :=
  { maxVersion := lit "0.1.0"
    stages := [lit "alpha", lit "beta", lit "rc"]
    finalVersion := lit "0.1.0"
    counterMin := 1
    buildMetadataAllowed := false
    previousValue := lit "0.0.0-planning"
    authorized := false
    gapClosed := false }

/-! ## The spelling of a version on the train -/

/-- There is no finding when its condition fails. -/
@[simp]
theorem findingIf_eq_nil_iff {c : Prop} [Decidable c] {finding : JsString} :
    findingIf c finding = [] ↔ ¬c := by
  by_cases h : c <;> simp [findingIf, h]

/-- The version of a stage and a counter of the repository's train. -/
def onTrain (stage counter : JsString) : JsString :=
  trainVersion versioningPolicy.finalVersion stage counter

section Spelling

variable {stage counter : JsString}

/-- Every stage is a pre-release identifier of letters. -/
theorem isPreReleaseIdentifier_of_mem_stages (h : stage ∈ versioningPolicy.stages) :
    isPreReleaseIdentifier stage = true ∧ isNumericIdentifier stage = false ∧ dot ∉ stage := by
  have hall : ∀ s ∈ versioningPolicy.stages,
      isPreReleaseIdentifier s = true ∧ isNumericIdentifier s = false ∧ dot ∉ s := by
    decide
  exact hall stage h

/-- Two parts are joined by one dot. -/
theorem intercalate_pair (s t : JsString) : [dot].intercalate [s, t] = s ++ dot :: t := by
  simp [List.intercalate]

/-- A pre-release on the train has its stage and its counter as parts. -/
theorem parts_prerelease (hstage : stage ∈ versioningPolicy.stages)
    (hcounter : IsCanonical counter) :
    (stage ++ dot :: counter).splitOn dot = [stage, counter] := by
  rw [splitOn_eq_iff (by simp), List.forall_mem_cons, List.forall_mem_singleton]
  refine ⟨⟨(isPreReleaseIdentifier_of_mem_stages hstage).2.2, ?_⟩, intercalate_pair _ _⟩
  exact notMem_of_isNumericIdentifier (isNumericIdentifier_iff.mpr hcounter) rfl

/-- A version on the train matches the pattern. -/
theorem exec_onTrain (hstage : stage ∈ versioningPolicy.stages) (hcounter : IsCanonical counter) :
    exec (onTrain stage counter) =
      some ⟨lit "0", lit "1", lit "0", some (stage ++ dot :: counter), none⟩ := by
  rw [exec_eq_some_iff]
  constructor
  · have hnumeric : isPreReleaseIdentifier counter = true := by
      rw [isPreReleaseIdentifier, isNumericIdentifier_iff.mpr hcounter, Bool.true_or]
    have hboth : [stage, counter].all isPreReleaseIdentifier = true := by
      simp [(isPreReleaseIdentifier_of_mem_stages hstage).1, hnumeric]
    rw [Groups.isValid, Option.all_some, parts_prerelease hstage hcounter, hboth]
    rfl
  · rw [Groups.text, behind, behind, Option.elim_some, Option.elim_none, List.append_nil]
    rfl

/-- `"0"` reads as zero. -/
theorem toNumber_zero : toNumber (lit "0") = 0 := numberOf_of_lt (n := 0) (by norm_num)

/-- `"1"` reads as one. -/
theorem toNumber_one : toNumber (lit "1") = 1 := numberOf_of_lt (n := 1) (by norm_num)

/-- The version of a stage and a counter. -/
def position (stage : JsString) (counter : Number) : Version Number :=
  ⟨0, 1, 0, [.alphanumeric stage, .numeric counter], []⟩

/-- A version on the train is parsed to its position. -/
theorem parseSemVer_onTrain (hstage : stage ∈ versioningPolicy.stages)
    (hcounter : IsCanonical counter) :
    parseSemVer (onTrain stage counter) = some (position stage (toNumber counter)) := by
  rw [parseSemVer, exec_onTrain hstage hcounter, Option.map_some, Groups.version, parts,
    Option.elim_some, parts_prerelease hstage hcounter, List.map_cons, List.map_singleton,
    identifier, identifier, (isPreReleaseIdentifier_of_mem_stages hstage).2.1,
    isNumericIdentifier_iff.mpr hcounter, toNumber_zero, toNumber_one]
  rfl

/-- The final version is parsed. -/
theorem parseSemVer_final :
    parseSemVer (lit "0.1.0") = some (⟨0, 1, 0, [], []⟩ : Version Number) := by
  have hexec : exec (lit "0.1.0") = some ⟨lit "0", lit "1", lit "0", none, none⟩ := by
    decide +kernel
  rw [parseSemVer, hexec, Option.map_some, Groups.version, toNumber_zero, toNumber_one]
  rfl

/-- A version on the train is below the ceiling. -/
theorem comparePrecedence_onTrain (hstage : stage ∈ versioningPolicy.stages)
    (hcounter : IsCanonical counter) :
    comparePrecedence (onTrain stage counter) versioningPolicy.maxVersion = .ok .lt := by
  rw [comparePrecedence, parseSemVer_onTrain hstage hcounter, versioningPolicy, parseSemVer_final]
  rfl

/-- What is found of a position depends on its stage and its counter. -/
theorem prereleaseFindings_position (version : JsString) (policy : VersioningPolicy) (n : Number) :
    prereleaseFindings version policy (position stage n) =
      positionFindings version policy (.alphanumeric stage) (.numeric n) := by
  have hbuild : ¬((position stage n).build ≠ [] ∧ policy.buildMetadataAllowed ≠ true) :=
    fun h => h.1 rfl
  exact congrArg (· ++ _) (findingIf_eq_nil_iff.mpr hbuild)

/-- Nothing is found of a version on the train. -/
theorem versionAgainstTrain_onTrain (hstage : stage ∈ versioningPolicy.stages)
    (hcounter : IsCanonical counter) (hpos : 1 ≤ toNumber counter) :
    versionAgainstTrain (onTrain stage counter) versioningPolicy = [] := by
  have hhistory : onTrain stage counter ≠ versioningPolicy.previousValue := by
    intro h
    have hsecond := congrArg (·[2]?) h
    cases hsecond
  have hcore : coreFindings (onTrain stage counter) versioningPolicy
      (position stage (toNumber counter)) = [] := by
    rw [coreFindings, show versioningPolicy.finalVersion = lit "0.1.0" from rfl, parseSemVer_final]
    dsimp only
    rw [if_neg (by simp [position]), prereleaseFindings_position, positionFindings,
      if_neg (not_not.mpr hstage)]
    exact findingIf_eq_nil_iff.mpr (not_lt.mpr hpos)
  rw [versionAgainstTrain, parseSemVer_onTrain hstage hcounter]
  dsimp only
  rw [comparePrecedence_onTrain hstage hcounter]
  dsimp only
  rw [findingIf_eq_nil_iff.mpr (by decide), findingIf_eq_nil_iff.mpr hhistory, hcore]
  rfl

/-- What passes the checks of the pre-release is a stage with a counter. -/
theorem exists_of_prereleaseFindings_eq_nil {version : JsString} {parsed : Version Number}
    (h : prereleaseFindings version versioningPolicy parsed = []) :
    ∃ stage ∈ versioningPolicy.stages, ∃ n : Number, 1 ≤ n ∧ parsed.build = [] ∧
      parsed.prerelease = [.alphanumeric stage, .numeric n] := by
  rw [prereleaseFindings] at h
  split at h
  · exact absurd (findingIf_eq_nil_iff.mp h) (by decide)
  · exact absurd (List.append_eq_nil_iff.mp h).2 (List.cons_ne_nil _ _)
  · rename_i stage counter hprerelease
    obtain ⟨hbuild, hposition⟩ := List.append_eq_nil_iff.mp h
    have hbuild : parsed.build = [] := by
      by_contra hne
      exact findingIf_eq_nil_iff.mp hbuild ⟨hne, by decide⟩
    cases stage with
    | numeric n => exact absurd hposition (List.cons_ne_nil _ _)
    | alphanumeric stage =>
      cases counter with
      | alphanumeric s =>
        rw [positionFindings] at hposition
        split_ifs at hposition
      | numeric n =>
        rw [positionFindings] at hposition
        split_ifs at hposition with hstage hlower
        exact ⟨stage, hstage, n, not_lt.mp (findingIf_eq_nil_iff.mp hposition), hbuild,
          hprerelease⟩
  · exact absurd (List.append_eq_nil_iff.mp h).2 (List.cons_ne_nil _ _)

/-- A number that is exact has one canonical spelling. -/
theorem eq_of_toNumber_eq {s t : JsString} (hs : IsCanonical s) (ht : IsCanonical t)
    (hsmall : decimal t < 2 ^ 53) (h : toNumber s = toNumber t) : s = t := by
  rw [toNumber, toNumber, numberOf_of_lt hsmall, numberOf_eq_coe_iff hsmall] at h
  exact eq_of_decimal_eq hs ht h

/-- There are no parts when there is no group. -/
theorem parts_eq_nil_iff {group : Option JsString} : parts group = [] ↔ group = none := by
  cases group with
  | none => exact ⟨fun _ => rfl, fun _ => rfl⟩
  | some t => exact ⟨fun h => absurd h (List.splitOn_ne_nil dot t), fun h => by cases h⟩

/-- An identifier of letters is its own text. -/
theorem identifier_eq_alphanumeric {t s : JsString}
    (h : identifier toNumber t = .alphanumeric s) : t = s := by
  rw [identifier] at h
  split_ifs at h
  exact Identifier.alphanumeric.inj h

/-- A numeric identifier is a canonical decimal, read as a Number. -/
theorem identifier_eq_numeric {t : JsString} {n : Number}
    (h : identifier toNumber t = .numeric n) : IsCanonical t ∧ toNumber t = n := by
  rw [identifier] at h
  split_ifs at h with hnumeric
  exact ⟨isNumericIdentifier_iff.mp hnumeric, Identifier.numeric.inj h⟩

/-- A version on the train has one spelling. -/
theorem text_eq_of_version_eq {g : Groups} {n : Number} (hvalid : g.isValid = true)
    (hversion : g.version toNumber = position stage n) :
    ∃ counter, IsCanonical counter ∧ toNumber counter = n ∧ g.text = onTrain stage counter := by
  rw [Groups.version, position, Version.mk.injEq, ← toNumber_zero, ← toNumber_one,
    List.map_eq_cons_iff, parts_eq_nil_iff] at hversion
  obtain ⟨hmajor, hminor, hpatch, ⟨first, rest, hparts, hstage, hrest⟩, hbuild⟩ := hversion
  obtain ⟨counter, rfl, hcounter⟩ := List.map_eq_singleton_iff.mp hrest
  obtain ⟨hcanonical, hnumber⟩ := identifier_eq_numeric hcounter
  rw [identifier_eq_alphanumeric hstage] at hparts
  have hcore : ∀ t ∈ [g.major, g.minor, g.patch], IsCanonical t := by
    intro t ht
    rw [Groups.isValid, Bool.and_eq_true, Bool.and_eq_true, List.all_eq_true] at hvalid
    exact isNumericIdentifier_iff.mp (hvalid.1.1 t ht)
  -- canonical numerals of one value are the same text
  have hzero : IsCanonical (lit "0") := isNumericIdentifier_iff.mp (by decide)
  have hone : IsCanonical (lit "1") := isNumericIdentifier_iff.mp (by decide)
  have hmajor := eq_of_toNumber_eq (hcore _ (by simp)) hzero (by decide) hmajor
  have hminor := eq_of_toNumber_eq (hcore _ (by simp)) hone (by decide) hminor
  have hpatch := eq_of_toNumber_eq (hcore _ (by simp)) hzero (by decide) hpatch
  obtain ⟨t, hprerelease⟩ : ∃ t, g.prerelease = some t := by
    cases hp : g.prerelease with
    | none =>
      rw [hp] at hparts
      cases hparts
    | some t => exact ⟨t, rfl⟩
  rw [hprerelease, parts, Option.elim_some, splitOn_eq_iff (List.cons_ne_nil _ _)] at hparts
  refine ⟨counter, hcanonical, hnumber, ?_⟩
  rw [Groups.text, hmajor, hminor, hpatch, hprerelease, hbuild, ← hparts.2, intercalate_pair,
    behind, behind, Option.elim_some, Option.elim_none, List.append_nil]
  rfl

/-- The versions on the repository's train are those a stage and a counter spell. -/
theorem versionAgainstTrain_eq_nil_iff {t : JsString} :
    versionAgainstTrain t versioningPolicy = [] ↔
      ∃ stage ∈ versioningPolicy.stages, ∃ counter, IsCanonical counter ∧ 1 ≤ toNumber counter ∧
        t = onTrain stage counter := by
  constructor
  · intro h
    cases hexec : exec t with
    | none =>
      rw [versionAgainstTrain, parseSemVer, hexec] at h
      cases h
    | some g =>
      obtain ⟨hvalid, rfl⟩ := exec_eq_some_iff.mp hexec
      rw [versionAgainstTrain, parseSemVer, hexec, Option.map_some] at h
      dsimp only at h
      split at h
      · cases h
      -- no finding leaves the core of the final version, a stage and a counter
      obtain ⟨-, hcore⟩ := List.append_eq_nil_iff.mp h
      rw [coreFindings, show versioningPolicy.finalVersion = lit "0.1.0" from rfl,
        parseSemVer_final] at hcore
      dsimp only at hcore
      split_ifs at hcore with hoff
      rw [not_or, not_or, not_not, not_not, not_not] at hoff
      obtain ⟨stage, hstage, n, hn, hbuild, hprerelease⟩ :=
        exists_of_prereleaseFindings_eq_nil hcore
      have hversion : g.version toNumber = position stage n :=
        Version.ext hoff.1 hoff.2.1 hoff.2.2 hprerelease hbuild
      obtain ⟨counter, hcanonical, rfl, htext⟩ := text_eq_of_version_eq hvalid hversion
      exact ⟨stage, hstage, counter, hcanonical, hn, htext⟩
  · rintro ⟨stage, hstage, counter, hcanonical, hpos, rfl⟩
    exact versionAgainstTrain_onTrain hstage hcanonical hpos

end Spelling

/-! ## The moves -/

section Moves

variable {source target stage stage' counter : JsString} {n n' : Number} {m : ℕ}

/-- A kept finding is not lost. -/
theorem foldl_keep_ne_nil {kept : List JsString} (h : kept ≠ []) (findings : List JsString) :
    findings.foldl (fun kept finding => if finding ∈ kept then kept else kept ++ [finding]) kept ≠
      [] := by
  induction findings generalizing kept with
  | nil => exact h
  | cons finding findings ih =>
    rw [List.foldl_cons]
    split_ifs
    · exact ih h
    · exact ih (List.append_ne_nil_of_left_ne_nil h _)

/-- Collapsing repeats leaves no finding only where there was none. -/
theorem dedupe_eq_nil_iff {findings : List JsString} : dedupe findings = [] ↔ findings = [] := by
  cases findings with
  | nil => exact Iff.rfl
  | cons finding findings =>
    rw [dedupe, List.foldl_cons, if_neg List.not_mem_nil]
    exact ⟨fun h => absurd h (foldl_keep_ne_nil (by simp) findings), fun h => by cases h⟩

/-- A position has the index of its stage. -/
theorem stageIndex_position (h : stage ∈ versioningPolicy.stages) :
    stageIndex versioningPolicy.stages (position stage n) =
      versioningPolicy.stages.idxOf stage := by
  rw [stageIndex, position, List.head?_cons]
  exact if_pos h

/-- A position has its counter. -/
theorem counterOf_position : counterOf (position stage n) = some n := rfl

/-- Inside a stage the counter goes forward by one. -/
theorem moveFindings_same :
    moveFindings source target versioningPolicy (position stage n) (position stage n') = [] ↔
      n < n' ∧ n' ≤ addOne n := by
  have hbelow (m m' : Number) : isBelow (some m) (some m') = true ↔ m < m' := by
    rw [isBelow, decide_eq_true_eq]
  have hstage : stageIndex versioningPolicy.stages (position stage n') =
      stageIndex versioningPolicy.stages (position stage n) := rfl
  rw [moveFindings, if_pos hstage]
  simp only [counterOf_position, Option.some_inj, Option.map_some, hbelow]
  split_ifs with heq hlt hjump
  · simp [heq]
  · simp [hlt.le]
  · simp [hjump]
  · exact iff_of_true rfl ⟨lt_of_le_of_ne (not_lt.mp hlt) (Ne.symm heq), not_lt.mp hjump⟩

/-- The stages are told apart by their place on the train. -/
theorem getElem?_succ_eq_some_iff (h : stage ∈ versioningPolicy.stages)
    (h' : stage' ∈ versioningPolicy.stages) :
    versioningPolicy.stages[versioningPolicy.stages.idxOf stage + 1]? = some stage' ↔
      versioningPolicy.stages.idxOf stage' = versioningPolicy.stages.idxOf stage + 1 := by
  have hall : ∀ s ∈ versioningPolicy.stages, ∀ s' ∈ versioningPolicy.stages,
      versioningPolicy.stages[versioningPolicy.stages.idxOf s + 1]? = some s' ↔
        versioningPolicy.stages.idxOf s' = versioningPolicy.stages.idxOf s + 1 := by
    decide
  exact hall stage h stage' h'

/-- Between stages, the next one starts with the least counter. -/
theorem moveFindings_of_ne (h : stage ∈ versioningPolicy.stages)
    (h' : stage' ∈ versioningPolicy.stages) (hne : stage' ≠ stage) :
    moveFindings source target versioningPolicy (position stage n) (position stage' n') = [] ↔
      versioningPolicy.stages[versioningPolicy.stages.idxOf stage + 1]? = some stage' ∧ n' = 1 := by
  have hindex : versioningPolicy.stages.idxOf stage' ≠ versioningPolicy.stages.idxOf stage :=
    fun heq => hne ((List.idxOf_inj h').mp heq)
  rw [getElem?_succ_eq_some_iff h h', moveFindings, stageIndex_position h, stageIndex_position h',
    if_neg (by omega)]
  split_ifs with hback hskip
  · exact iff_of_false id (by omega)
  · exact iff_of_false id (by omega)
  · rw [findingIf_eq_nil_iff, not_not, counterOf_position, Option.some_inj]
    exact ⟨fun hone => ⟨by omega, hone⟩, fun hboth => hboth.2⟩

/-- A move between two versions on the train is permitted when it puts the counter forward by
one, or starts the next stage. -/
theorem moveFindings_eq_nil_iff (h : stage ∈ versioningPolicy.stages)
    (h' : stage' ∈ versioningPolicy.stages) :
    moveFindings source target versioningPolicy (position stage n) (position stage' n') = [] ↔
      (stage' = stage ∧ n < n' ∧ n' ≤ addOne n) ∨
        (versioningPolicy.stages[versioningPolicy.stages.idxOf stage + 1]? = some stage' ∧
          n' = 1) := by
  by_cases hsame : stage' = stage
  · subst hsame
    rw [moveFindings_same, getElem?_succ_eq_some_iff h h']
    exact ⟨fun hmove => .inl ⟨rfl, hmove⟩, fun hor => hor.elim And.right fun hnext => by omega⟩
  · rw [moveFindings_of_ne h h' hsame]
    exact ⟨.inr, fun hor => hor.elim (fun hboth => absurd hboth.1 hsame) id⟩

/-- The counter after an exact one. -/
theorem addOne_coe (h : m < 2 ^ 53 - 1) : addOne (m : Number) = (m + 1 : ℕ) :=
  numberOf_of_lt (show m + 1 < 2 ^ 53 by omega)

/-- Below the last safe integer, one more is the next integer alone. -/
theorem lt_and_le_addOne_iff (h : m < 2 ^ 53 - 1) :
    (m : Number) < n ∧ n ≤ addOne (m : Number) ↔ n = (m + 1 : ℕ) := by
  rw [addOne_coe h]
  constructor
  · rintro ⟨hlt, hle⟩
    obtain ⟨k, rfl⟩ := WithTop.ne_top_iff_exists.mp (ne_top_of_le_ne_top WithTop.coe_ne_top hle)
    have hmk : m < k := WithTop.coe_lt_coe.mp hlt
    have hkm : k ≤ m + 1 := WithTop.coe_le_coe.mp hle
    rw [show k = m + 1 by omega]
    rfl
  · rintro rfl
    exact ⟨WithTop.coe_lt_coe.mpr (Nat.lt_succ_self m), le_rfl⟩

/-- An exact counter that is not zero has one spelling. -/
theorem toNumber_eq_coe_iff (hcounter : IsCanonical counter) (hpos : m ≠ 0) (h : m < 2 ^ 53) :
    toNumber counter = m ↔ counter = naturalText m := by
  rw [toNumber, numberOf_eq_coe_iff h]
  constructor
  · intro hvalue
    refine eq_of_decimal_eq hcounter (isCanonical_naturalText hpos h) ?_
    rw [hvalue, decimal_naturalText hpos h]
  · rintro rfl
    exact decimal_naturalText hpos h

/-- The moves recommended from a version on the train. -/
theorem mem_recommendedNextVersions_iff (hstage : stage ∈ versioningPolicy.stages)
    (hcounter : IsCanonical counter) (hpos : 1 ≤ toNumber counter) :
    target ∈ recommendedNextVersions (onTrain stage counter) versioningPolicy ↔
      target = onTrain stage (naturalText (addOne (toNumber counter))) ∨
        ∃ next, versioningPolicy.stages[versioningPolicy.stages.idxOf stage + 1]? = some next ∧
          target = onTrain next (naturalText 1) := by
  rw [recommendedNextVersions, parseSemVer_onTrain hstage hcounter]
  dsimp only
  rw [if_neg (not_not.mpr (versionAgainstTrain_onTrain hstage hcounter hpos)), position]
  dsimp only
  simp only [List.mem_cons, List.mem_map, Option.mem_toList]
  exact or_congr Iff.rfl (exists_congr fun next => and_congr Iff.rfl eq_comm)

/-- What is found of a move from a version on the train to another text. -/
theorem transitionViolations_onTrain (hstage : stage ∈ versioningPolicy.stages)
    (hcounter : IsCanonical counter) (hpos : 1 ≤ toNumber counter) :
    transitionViolations [] (onTrain stage counter) target versioningPolicy = [] ↔
      ∃ stage' ∈ versioningPolicy.stages, ∃ counter', IsCanonical counter' ∧
        1 ≤ toNumber counter' ∧ target = onTrain stage' counter' ∧
          ((stage' = stage ∧ toNumber counter < toNumber counter' ∧
              toNumber counter' ≤ addOne (toNumber counter)) ∨
            (versioningPolicy.stages[versioningPolicy.stages.idxOf stage + 1]? = some stage' ∧
              toNumber counter' = 1)) := by
  have hsource := versionAgainstTrain_onTrain hstage hcounter hpos
  constructor
  · intro h
    rw [transitionViolations, if_neg (not_not.mpr rfl), parseSemVer_onTrain hstage hcounter] at h
    -- a target that is no version is found already before the moves are looked at
    cases htarget : parseSemVer target with
    | none =>
      rw [htarget] at h
      exact absurd (dedupe_eq_nil_iff.mp h) (by simp [findingIf])
    | some b =>
      rw [htarget, hsource, List.map_nil, List.nil_append] at h
      dsimp only at h
      split_ifs at h with hfindings
      · exact absurd (dedupe_eq_nil_iff.mp h) hfindings
      · rw [not_not, List.map_eq_nil_iff, versionAgainstTrain_eq_nil_iff] at hfindings
        obtain ⟨stage', hstage', counter', hcounter', hpos', rfl⟩ := hfindings
        rw [parseSemVer_onTrain hstage' hcounter', Option.some_inj] at htarget
        rw [← htarget, dedupe_eq_nil_iff, moveFindings_eq_nil_iff hstage hstage'] at h
        exact ⟨stage', hstage', counter', hcounter', hpos', rfl, h⟩
  · rintro ⟨stage', hstage', counter', hcounter', hpos', rfl, hmove⟩
    rw [transitionViolations, if_neg (not_not.mpr rfl), parseSemVer_onTrain hstage hcounter,
      parseSemVer_onTrain hstage' hcounter', hsource,
      versionAgainstTrain_onTrain hstage' hcounter' hpos', List.map_nil, List.map_nil]
    dsimp only
    rw [if_neg (by simp), dedupe_eq_nil_iff, moveFindings_eq_nil_iff hstage hstage']
    exact hmove

/-- The move raises the precedence. -/
theorem comparePrecedence_move {counter' : JsString} (hstage : stage ∈ versioningPolicy.stages)
    (hstage' : stage' ∈ versioningPolicy.stages) (hcounter : IsCanonical counter)
    (hcounter' : IsCanonical counter')
    (h : (stage' = stage ∧ toNumber counter < toNumber counter') ∨
      versioningPolicy.stages[versioningPolicy.stages.idxOf stage + 1]? = some stage') :
    comparePrecedence (onTrain stage' counter') (onTrain stage counter) = .ok .gt := by
  -- the stages rise in alphabetical order, so a later stage decides, and else the counter
  have hidentifiers : compareShared
      [.alphanumeric stage', .numeric (toNumber counter')]
      [.alphanumeric stage, .numeric (toNumber counter)] = .gt := by
    rcases h with ⟨rfl, hlt⟩ | hnext
    · rw [compareShared, compareIdentifier, if_neg (lt_irrefl stage'), if_neg (lt_irrefl stage'),
        Ordering.eq_then, compareShared, compareIdentifier, sign, compare_gt_iff_gt.mpr hlt,
        Ordering.gt_then]
    · have hall : ∀ s ∈ versioningPolicy.stages, ∀ s' ∈ versioningPolicy.stages,
          versioningPolicy.stages[versioningPolicy.stages.idxOf s + 1]? = some s' → s < s' := by
        decide
      have hlt := hall stage hstage stage' hstage' hnext
      rw [compareShared, compareIdentifier, if_neg hlt.not_gt, if_pos hlt, Ordering.gt_then]
  rw [comparePrecedence, parseSemVer_onTrain hstage' hcounter', parseSemVer_onTrain hstage hcounter]
  exact congrArg Except.ok hidentifiers

/-- From a version on the repository's train whose counter is an exact Number, the moves that are
permitted are those that are recommended, and each raises the precedence and stays below the
ceiling. -/
theorem transitionViolations_eq_nil_iff {integrity : List JsString} {version : JsString}
    (hclean : integrity = []) (htrain : versionAgainstTrain version versioningPolicy = [])
    (hexact : ∀ v, parseSemVer version = some v → ∀ n ∈ counterOf v, n < (2 ^ 53 - 1 : ℕ)) :
    (∀ target, transitionViolations integrity version target versioningPolicy = [] ↔
      target ∈ recommendedNextVersions version versioningPolicy) ∧
    ∀ target, transitionViolations integrity version target versioningPolicy = [] →
      comparePrecedence target version = .ok .gt ∧
        ∃ o, comparePrecedence target versioningPolicy.maxVersion = .ok o ∧ o ≠ .gt := by
  subst hclean
  obtain ⟨stage, hstage, counter, hcounter, hpos, rfl⟩ := versionAgainstTrain_eq_nil_iff.mp htrain
  -- up to here one more is exact, so the next counter is the one that is recommended
  obtain ⟨m, hm, hsmall⟩ : ∃ m : ℕ, toNumber counter = m ∧ m < 2 ^ 53 - 1 := by
    have hlt := hexact _ (parseSemVer_onTrain hstage hcounter) _ counterOf_position
    obtain ⟨m, hm⟩ := WithTop.ne_top_iff_exists.mp (ne_top_of_lt hlt)
    rw [← hm] at hlt
    exact ⟨m, hm.symm, WithTop.coe_lt_coe.mp hlt⟩
  refine ⟨fun target => ?_, fun target h => ?_⟩
  · rw [transitionViolations_onTrain hstage hcounter hpos,
      mem_recommendedNextVersions_iff hstage hcounter hpos, hm, addOne_coe hsmall]
    constructor
    · rintro ⟨stage', hstage', counter', hcounter', -, rfl, ⟨rfl, hnext⟩ | ⟨hnext, hone⟩⟩
      · left
        rw [← addOne_coe hsmall, lt_and_le_addOne_iff hsmall,
          toNumber_eq_coe_iff hcounter' (Nat.succ_ne_zero m) (by omega)] at hnext
        rw [hnext]
      · refine .inr ⟨stage', hnext, ?_⟩
        have hone := (toNumber_eq_coe_iff hcounter' one_ne_zero (by norm_num)).mp hone
        rw [hone]
        rfl
    · rintro (rfl | ⟨next, hnext, rfl⟩)
      · have hcanonical := isCanonical_naturalText (Nat.succ_ne_zero m) (by omega)
        have hnumber : toNumber (naturalText (m + 1 : ℕ)) = (m + 1 : ℕ) :=
          (toNumber_eq_coe_iff hcanonical (Nat.succ_ne_zero m) (by omega)).mpr rfl
        have hmove := (lt_and_le_addOne_iff hsmall).mpr hnumber
        rw [addOne_coe hsmall] at hmove
        rw [hm] at hpos
        exact ⟨stage, hstage, _, hcanonical, hpos.trans hmove.1.le, rfl, .inl ⟨rfl, hmove⟩⟩
      · have hcanonical := isCanonical_naturalText one_ne_zero (by norm_num)
        have hnumber : toNumber (naturalText (1 : ℕ)) = (1 : ℕ) :=
          (toNumber_eq_coe_iff hcanonical one_ne_zero (by norm_num)).mpr rfl
        exact ⟨next, List.mem_of_getElem? hnext, _, hcanonical, hnumber.ge, rfl,
          .inr ⟨hnext, hnumber⟩⟩
  · obtain ⟨stage', hstage', counter', hcounter', -, rfl, hmove⟩ :=
      (transitionViolations_onTrain hstage hcounter hpos).mp h
    refine ⟨comparePrecedence_move hstage hstage' hcounter hcounter' ?_, .lt,
      comparePrecedence_onTrain hstage' hcounter', by decide⟩
    exact hmove.imp (fun hsame => ⟨hsame.1, hsame.2.1⟩) And.left

/-- The repository's version moves to the second alpha or the first beta. -/
theorem transitionViolations_firstAlpha :
    versionAgainstTrain (lit "0.1.0-alpha.1") versioningPolicy = [] ∧
      recommendedNextVersions (lit "0.1.0-alpha.1") versioningPolicy =
        [lit "0.1.0-alpha.2", lit "0.1.0-beta.1"] ∧
      ∀ target, transitionViolations [] (lit "0.1.0-alpha.1") target versioningPolicy = [] ↔
        target ∈ recommendedNextVersions (lit "0.1.0-alpha.1") versioningPolicy := by
  have htrain : versionAgainstTrain (lit "0.1.0-alpha.1") versioningPolicy = [] := by
    decide +kernel
  refine ⟨htrain, by decide +kernel, (transitionViolations_eq_nil_iff rfl htrain ?_).1⟩
  intro v hv n hn
  have hone : IsCanonical (lit "1") := isNumericIdentifier_iff.mp (by decide)
  have halpha : lit "alpha" ∈ versioningPolicy.stages := by decide
  have hversion : lit "0.1.0-alpha.1" = onTrain (lit "alpha") (lit "1") := by decide
  rw [hversion, parseSemVer_onTrain halpha hone, Option.some_inj] at hv
  rw [← hv, counterOf_position, Option.mem_some_iff] at hn
  rw [← hn, toNumber_one]
  exact WithTop.coe_lt_coe.mpr (by norm_num)

end Moves

end MetaframerKernel.Versioning
