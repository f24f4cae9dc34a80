import MetaframerKernel.Js.Operators

/-!
# The token guard

Nine evaluators judge one request against registries of what is going on. The facts are JSON data,
as the command reads them from a file; a field that is left out is `none`.

## Main definitions

* `Facts`: what the evaluators are handed;
* `evaluateDuplicateWorker` … `evaluateCompletedPanelCleanup`: the evaluators;
* `decide`: their findings and the decision.
-/

namespace MetaframerKernel.TokenGuard

open Js

/-! ## Findings -/

/-- `PASS`, `ESCALATE`, `DENY` and, of a finding only, `ADVISE`. -/
inductive Decision where
  | pass
  | escalate
  | deny
  | advise
deriving DecidableEq

/-- A finding. -/
structure Finding where
  id : JsString
  decision : Decision
  message : JsString
  gate : Option JsString
deriving DecidableEq

/-- `REVIEW_ROLES` -/
def reviewRoles : List JsString := [lit "independent-reviewer", lit "reviewer", lit "auditor"]

/-- `REVIEW_ROLES.has(role)` -/
def isReviewRole : Option Json → Bool
  | some (.str role) => reviewRoles.contains role
  | _ => false

/-- `unobserved` -/
def unobserved (id name gate : String) : List Finding :=
  [⟨lit id, .escalate,
    lit (name ++ " could not be observed; an unobservable registry is not an empty one"),
    some (lit gate)⟩]

/-! ## Facts -/

/-- The facts an evaluator is handed. -/
structure Facts where
  requested : Option Json
  liveWorkers : Option Json
  alreadyRead : Option Json
  activeWriters : Option Json
  worktrees : Option Json
  guardian : Option Json
  reviews : Option Json
  currentSnapshot : Option Json
  gates : Option Json
  panels : Option Json

/-- `requested`, for which `{}` stands in. -/
def Facts.request (facts : Facts) : Json := facts.requested.getD (.obj [])

/-- `value.name` -/
def field (value : Json) (name : String) : Except NativeError (Option Json) :=
  value.property (lit name)

/-- `x === "text"` -/
def isText (x : Option Json) (text : String) : Bool := Json.strictEq x (some (.str (lit text)))

/-- `array.find(test)` -/
def findM (test : Json → Except NativeError Bool) : List Json → Except NativeError (Option Json)
  | [] => .ok none
  | v :: l => do
      if ← test v then return some v
      findM test l

/-- The evaluation of a registry: `unseen` where it is no array. -/
def observing (registry : Option Json) (unseen : List Finding)
    (evaluate : List Json → Except NativeError (List Finding)) :
    Except NativeError (List Finding) :=
  match registry with
  | some (.arr l) => evaluate l
  | _ => .ok unseen

/-! ## Duplicate worker -/

/-- `evaluateDuplicateWorker` -/
def evaluateDuplicateWorker (facts : Facts) : Except NativeError (List Finding) := do
  let requested := facts.request
  let signature ← field requested "taskSignature"
  if !Json.isTruthy signature then return []
  observing facts.liveWorkers
    (unobserved "live-workers-unobserved" "the live worker registry" "parallel-worker")
    fun workers => do
      let live ← workers.filterM fun w => do
        if isText (← field w "state") "running" then
          return Json.strictEq (← field w "taskSignature") signature
        else return false
      if live = [] then return []
      let role ← field requested "role"
      -- reviewers may work on one task side by side, each with a lens of its own
      if isReviewRole role then
        let lens ← field requested "lens"
        let sameLens ← live.filterM fun w => do
          if isReviewRole (← field w "role") then
            return Json.strictEq (← field w "lens") lens
          else return false
        if sameLens = [] then return []
        let lensText ← Json.templateText lens
        let signatureText ← Json.templateText signature
        return [⟨lit "duplicate-worker-same-lens", .deny,
          lit "a reviewer with lens " ++ lensText ++ lit " is already running on " ++ signatureText,
          some (lit "parallel-worker")⟩]
      let signatureText ← Json.templateText signature
      let panels ← Json.joinTexts (← live.mapM fun w => field w "panelId")
      return [⟨lit "duplicate-worker", .deny,
        lit "task " ++ signatureText ++ lit " already has a running worker (" ++ panels ++ lit ")",
        some (lit "parallel-worker")⟩]

/-! ## Duplicate file read -/

/-- `covers` -/
def covers (prior want : Json) : Except NativeError Bool := do
  let priorLines ← field prior "lines"
  -- a full read covers any range, and a range no full read
  if !Json.isTruthy priorLines then return true
  let wantLines ← field want "lines"
  if !Json.isTruthy wantLines then return false
  let priorLines := priorLines.getD .null
  let wantLines := wantLines.getD .null
  if ← Json.lessEq (← priorLines.index 0) (← wantLines.index 0) then
    Json.lessEq (← wantLines.index 1) (← priorLines.index 1)
  else return false

/-- The text of `value.slice(0, 12)`. -/
def sliceText : Option Json → Except NativeError JsString
  | some (.str s) => .ok (s.take 12)
  | some (.arr l) => (Json.arr (l.take 12)).toText
  | _ => .error (.typeError (lit "requested.sha256.slice is not a function"))

/-- `evaluateDuplicateFileRead` -/
def evaluateDuplicateFileRead (facts : Facts) : Except NativeError (List Finding) := do
  let requested := facts.request
  let path ← field requested "path"
  if !Json.isTruthy path then return []
  -- without a path and a digest the request is about no file that could be known
  let sha256 ← field requested "sha256"
  if !Json.isTruthy sha256 then return []
  observing facts.alreadyRead
    (unobserved "read-log-unobserved" "the session read log" "policy-anomaly")
    fun reads => do
      let hit ← findM (fun r => do
        if !Json.strictEq (← field r "path") path then return false
        if !Json.strictEq (← field r "sha256") sha256 then return false
        covers r requested) reads
      if hit.isNone then return []
      let pathText ← Json.templateText path
      let shaText ← sliceText sha256
      return [⟨lit "duplicate-file-read", .deny,
        pathText ++ lit " was already read at " ++ shaText ++ lit " and has not changed", none⟩]

/-! ## Writer ownership -/

/-- `evaluateWriterOwnership` -/
def evaluateWriterOwnership (facts : Facts) : Except NativeError (List Finding) := do
  let requested := facts.request
  let changePackage ← field requested "changePackage"
  if !Json.isTruthy changePackage then return []
  observing facts.activeWriters
    (unobserved "writer-registry-unobserved" "the active writer registry" "writer-assignment")
    fun writers => do
      let onPackage ← writers.filterM fun w => do
        return Json.strictEq (← field w "changePackage") changePackage
      if onPackage = [] then return []
      let role ← field requested "role"
      let sessionId ← field requested "sessionId"
      -- a second writer is refused, and a reviewer who is the writer
      if isText role "writer" then
        let others ← onPackage.filterM fun w => do
          return !Json.strictEq (← field w "sessionId") sessionId
        match others with
        | [] => return []
        | other :: _ =>
            let packageText ← Json.templateText changePackage
            let otherText ← Json.templateText (← field other "sessionId")
            return [⟨lit "single-writer-violation", .deny,
              packageText ++ lit " already has an active writer (" ++ otherText ++ lit ")",
              some (lit "writer-assignment")⟩]
      if isReviewRole role then
        let self ← findM (fun w => do
          return Json.strictEq (← field w "sessionId") sessionId) onPackage
        if self.isNone then return []
        let sessionText ← Json.templateText sessionId
        let packageText ← Json.templateText changePackage
        return [⟨lit "self-review-violation", .deny,
          lit "session " ++ sessionText ++ lit " wrote " ++ packageText ++
            lit " and may not review it",
          some (lit "writer-assignment")⟩]
      let packageText ← Json.templateText changePackage
      -- what the requester is going to do is not known
      return [⟨lit "requester-role-unclassified", .escalate,
        packageText ++ lit " has an active writer and the requested role " ++
          Json.stringifyText role ++ lit " is neither writer nor reviewer",
        some (lit "writer-assignment")⟩]

/-! ## Dirty snapshot -/

/-- `evaluateDirtySnapshot` -/
def evaluateDirtySnapshot (facts : Facts) : Except NativeError (List Finding) := do
  let requested := facts.request
  let worktree ← field requested "worktree"
  if !Json.isTruthy worktree then return []
  let role ← field requested "role"
  -- a writer makes the tree dirty by writing
  if isText role "writer" then return []
  if !isReviewRole role then
    return [⟨lit "snapshot-role-unclassified", .escalate,
      lit "role " ++ Json.stringifyText role ++
        lit " is not classified, so snapshot cleanliness cannot be judged",
      some (lit "snapshot-change")⟩]
  observing facts.worktrees
    (unobserved "worktrees-unobserved" "the worktree set" "snapshot-change")
    fun worktrees => do
      let found ← findM (fun w => do return Json.strictEq (← field w "path") worktree) worktrees
      match found with
      | none =>
          let worktreeText ← Json.templateText worktree
          return [⟨lit "dirty-snapshot-unknown", .escalate,
            lit "worktree " ++ worktreeText ++ lit " is not in the observed set",
            some (lit "snapshot-change")⟩]
      | some wt =>
          let dirty ← field wt "dirty"
          if Json.strictEq dirty (some (.bool false)) then return []
          let worktreeText ← Json.templateText worktree
          -- neither of the two booleans: the state was not observed
          if !Json.strictEq dirty (some (.bool true)) then
            return [⟨lit "dirty-snapshot-unreadable", .escalate,
              lit "cleanliness of " ++ worktreeText ++ lit " could not be determined",
              some (lit "snapshot-change")⟩]
          return [⟨lit "dirty-snapshot", .deny,
            worktreeText ++
              lit " has uncommitted changes; a review on a moving tree proves nothing",
            some (lit "snapshot-change")⟩]

/-! ## Branch and worktree collision -/

/-- `evaluateBranchWorktreeCollision` -/
def evaluateBranchWorktreeCollision (facts : Facts) : Except NativeError (List Finding) := do
  let requested := facts.request
  let branch ← field requested "branch"
  if !Json.isTruthy branch then return []
  observing facts.worktrees
    (unobserved "worktrees-unobserved-branch" "the worktree set" "policy-anomaly")
    fun worktrees => do
      let worktree ← field requested "worktree"
      let elsewhere ← worktrees.filterM fun w => do
        if Json.strictEq (← field w "branch") branch then
          -- a worktree does not collide with itself
          return !Json.strictEq (← field w "path") worktree
        else return false
      match elsewhere with
      | [] => return []
      | other :: _ =>
          let branchText ← Json.templateText branch
          let pathText ← Json.templateText (← field other "path")
          return [⟨lit "branch-worktree-collision", .deny,
            lit "branch " ++ branchText ++ lit " is already checked out at " ++ pathText, none⟩]

/-! ## Guardian admission -/

/-- `evaluateGuardianAdmission` -/
def evaluateGuardianAdmission (facts : Facts) : Except NativeError (List Finding) := do
  let requested := facts.request
  let opensWorker ← field requested "opensWorker"
  if !Json.isTruthy opensWorker then return []
  let unreadable : List Finding := [⟨lit "guardian-unreadable", .escalate,
    lit "guardian admission could not be read; an unreadable resource decision is not a pass",
    some (lit "parallel-worker")⟩]
  if !Json.isTruthy facts.guardian then return unreadable
  let guardian := facts.guardian.getD .null
  let allowNewWorker ← field guardian "allowNewWorker"
  if !Json.isBoolean allowNewWorker then return unreadable
  if Json.strictEq allowNewWorker (some (.bool false)) then
    let modeText ← Json.templateText (← field guardian "mode")
    return [⟨lit "guardian-blocked", .deny,
      lit "guardian reports allowNewWorker=false (mode " ++ modeText ++ lit ")",
      some (lit "parallel-worker")⟩]
  -- a missing count is one worker, and a missing ceiling is one as well
  let want := orOne (← field requested "requestedWorkerCount")
  let cap := orOne (← field guardian "recommendedNewWorkers")
  if ← Json.greater want cap then
    let wantText ← Json.templateText want
    let capText ← Json.templateText cap
    return [⟨lit "guardian-over-cap", .escalate,
      wantText ++ lit " workers requested against a recommended ceiling of " ++ capText,
      some (lit "parallel-worker")⟩]
  return []
where
  /-- `value ?? 1` -/
  orOne : Option Json → Option Json
    | none | some .null => some (.num (.ofInt 1))
    | v => v

/-! ## Stale review -/

/-- `evaluateStaleReview` -/
def evaluateStaleReview (facts : Facts) : Except NativeError (List Finding) := do
  let requested := facts.request
  let useReviewFrom ← field requested "useReviewFrom"
  if !Json.isTruthy useReviewFrom then return []
  -- a registry that was not observed is no evidence that the review is fresh
  observing facts.reviews
    (unobserved "review-registry-unobserved" "the review registry" "snapshot-change")
    fun reviews => do
      let found ← findM (fun r => do return Json.strictEq (← field r "id") useReviewFrom) reviews
      match found with
      | none =>
          let useText ← Json.templateText useReviewFrom
          return [⟨lit "stale-review-unknown", .escalate,
            lit "review " ++ useText ++ lit " was not found", some (lit "snapshot-change")⟩]
      | some review =>
          let snapshot ← field review "snapshot"
          -- two snapshots that are no strings are not compared, even where they are equal
          if !Json.isString snapshot || !Json.isString facts.currentSnapshot then
            let idText ← Json.templateText (← field review "id")
            return [⟨lit "stale-review-unverifiable", .escalate,
              lit "review " ++ idText ++ lit " cannot be checked: snapshot=" ++
                Json.stringifyText snapshot ++ lit ", current=" ++
                Json.stringifyText facts.currentSnapshot,
              some (lit "snapshot-change")⟩]
          if Json.strictEq snapshot facts.currentSnapshot then return []
          let idText ← Json.templateText (← field review "id")
          let snapshotText ← Json.templateText snapshot
          let currentText ← Json.templateText facts.currentSnapshot
          return [⟨lit "stale-review", .deny,
            lit "review " ++ idText ++ lit " was taken on " ++ snapshotText ++
              lit " and the tree is now " ++ currentText,
            some (lit "snapshot-change")⟩]

/-! ## Commit, push and promotion gate -/

/-- `PROMOTION_ACTIONS` -/
def promotionActions : List JsString := [lit "commit", lit "push", lit "main-promotion"]

/-- `MUTATION_SIGNALS` -/
def mutationSignals : List JsString :=
  [lit "forcePush", lit "commitToMain", lit "commit", lit "push", lit "merge", lit "promote",
    lit "release", lit "tag", lit "rebase"]

/-- `NON_GIT_MUTATING_ACTIONS` -/
def nonGitMutatingActions : List JsString :=
  [lit "read", lit "edit", lit "write", lit "analyze", lit "analyse", lit "review",
    lit "inventory", lit "search", lit "grep", lit "plan", lit "test", lit "check", lit "verify",
    lit "open-worker", lit "close-worker", lit "status", lit "report", lit "git-status",
    lit "git-log", lit "git-diff", lit "git-blame", lit "git-show", lit "fetch", lit "ls",
    lit "list"]

/-- `KNOWN_NON_MUTATING_FIELDS` -/
def knownNonMutatingFields : List JsString :=
  [lit "action", lit "path", lit "sha256", lit "lines", lit "taskSignature", lit "role",
    lit "lens", lit "changePackage", lit "sessionId", lit "worktree", lit "branch",
    lit "useReviewFrom", lit "opensWorker", lit "requestedWorkerCount", lit "model", lit "note",
    lit "panelId", lit "state", lit "reason", lit "label"]

/-- `REQUIRED_GATES` -/
def requiredGates : List JsString :=
  [lit "correctWorktree", lit "cleanBase", lit "originFetched", lit "noConflict",
    lit "targetedTestsGreen", lit "fullCheckGreen", lit "independentReviewGreen",
    lit "writerDidNotSelfReview", lit "readmeCurrent", lit "changelogCurrent",
    lit "versionParityGreen", lit "rollbackShaReady", lit "noPublicApiBreak",
    lit "noProductionDeployment", lit "noSecret"]

/-- `toLowerCase`, as far as a word of ASCII letters can tell: beside the capitals, only the Kelvin
sign and the dotted capital I have an ASCII letter in their lower case. -/
def toLowerCase (s : JsString) : JsString :=
  s.flatMap fun u =>
    if u.inRange 'A' 'Z' then [u + 32]
    else if u = 0x212A then lit "k"
    else if u = 0x0130 then [0x69, 0x0307]
    else [u]

/-- `carriesMutationIntent` -/
def carriesMutationIntent (requested : Json) : Bool :=
  requested.entries.any fun p =>
    Json.strictEq (some p.2) (some (.bool true)) && !knownNonMutatingFields.contains p.1

/-- A field that `malformedMutationSignals` keeps. -/
def isMalformedSignal (p : JsString × Json) : Bool :=
  match p.2 with
  | .null | .bool _ => false
  | v => mutationSignals.contains p.1 ||
      (!knownNonMutatingFields.contains p.1 && Json.isTruthy (some v))

/-- `malformedMutationSignals`, with their values. -/
def malformedMutationSignals (requested : Json) : List (JsString × Json) :=
  requested.entries.filter isMalformedSignal

/-- `action.trim().toLowerCase()`, of a string. -/
def normalizedAction : Option Json → Option JsString
  | some (.str action) => some (toLowerCase (trim action))
  | _ => none

/-- `actionIsKnownSafe` -/
def actionIsKnownSafe (action : Option Json) : Option Bool :=
  match action with
  | none | some .null => none
  | action => some ((normalizedAction action).any nonGitMutatingActions.contains)

/-- `gates !== null && typeof gates === "object"` -/
def isReport : Option Json → Bool
  | some (.obj _) | some (.arr _) => true
  | _ => false

/-- What a gate that is not green is found to be. -/
def gateFinding (gates : Json) (key : JsString) : Except NativeError (List Finding) := do
  match ← gates.property key with
  | none =>
      return [⟨lit "promotion-gate-unknown:" ++ key, .escalate,
        lit "gate " ++ key ++ lit " was not reported; an unreported gate is not a green gate",
        some (lit "main-promotion")⟩]
  | some v =>
      -- green is the boolean, and nothing else that is truthy
      if Json.strictEq (some v) (some (.bool true)) then return []
      return [⟨lit "promotion-gate-failed:" ++ key, .deny, lit "gate " ++ key ++ lit " is not green",
        some (lit "main-promotion")⟩]

/-- The findings on an action that is no promotion by name. -/
def unnamedFindings (requested : Json) (action gates : Option Json) : List Finding :=
  let reportsGates := isReport gates && !(gates.getD .null).entries.isEmpty
  if carriesMutationIntent requested || reportsGates || actionIsKnownSafe action == some false then
    [⟨lit "promotion-intent-unclassified", .escalate,
      lit "action " ++ Json.stringifyText action ++
        lit " is neither a recognised promotion action nor on the non-git-mutating list; " ++
        lit "promotion actions are commit, push, main-promotion",
      some (lit "main-promotion")⟩]
  else []

/-- The findings on the gates of a promotion. -/
def gateFindings (gates : Option Json) : Except NativeError (List Finding) :=
  if isReport gates then
    return (← requiredGates.mapM (gateFinding (gates.getD .null))).flatten
  else
    return [⟨lit "promotion-gates-unreadable", .escalate,
      lit "a promotion was requested with no readable gate report", some (lit "main-promotion")⟩]

/-- The finding on a field that is no boolean. -/
def signalFinding (p : JsString × Json) : Finding :=
  ⟨lit "mutation-signal-unclassified:" ++ p.1, .escalate,
    p.1 ++ lit " is " ++ Json.stringifyText (some p.2) ++ lit " rather than a boolean",
    some (lit "main-promotion")⟩

/-- The finding on a force push. -/
def forcePushFinding : Finding :=
  ⟨lit "force-push-forbidden", .deny,
    lit "force push is not within MASTER authority under any gate state",
    some (lit "main-promotion")⟩

/-- The findings on the action and the gates. -/
def actionFindings (requested : Json) (action gates : Option Json) :
    Except NativeError (List Finding) :=
  if (normalizedAction action).any promotionActions.contains then gateFindings gates
  else .ok (unnamedFindings requested action gates)

/-- `evaluatePromotionGate` -/
def evaluatePromotionGate (facts : Facts) : Except NativeError (List Finding) := do
  let requested := facts.request
  let forcePush ← field requested "forcePush"
  let forced := if Json.strictEq forcePush (some (.bool true)) then [forcePushFinding] else []
  let signals := (malformedMutationSignals requested).map signalFinding
  let action ← field requested "action"
  return forced ++ signals ++ (← actionFindings requested action facts.gates)

/-! ## Completed panel cleanup -/

/-- `evaluateCompletedPanelCleanup` -/
def evaluateCompletedPanelCleanup (facts : Facts) : Except NativeError (List Finding) :=
  observing facts.panels
    [⟨lit "panel-registry-unobserved", .advise, lit "the panel registry could not be observed", none⟩]
    fun panels => do
      let leaked ← panels.filterM fun p => do
        if isText (← field p "state") "completed" then return Json.isTruthy (← field p "open")
        else return false
      -- the ids are printed only when there are any
      if leaked = [] then return []
      let texts ← Json.joinTexts (← leaked.mapM fun p => field p "panelId")
      return [⟨lit "panel-cleanup-pending", .advise,
        (JsNumber.ofInt leaked.length).toText ++ lit " completed panel(s) still open: " ++ texts,
        none⟩]

/-! ## Composition -/

/-- The evaluators, in the order their findings come in. -/
def evaluators : List (Facts → Except NativeError (List Finding)) :=
  [evaluateDuplicateWorker, evaluateDuplicateFileRead, evaluateWriterOwnership,
    evaluateDirtySnapshot, evaluateBranchWorktreeCollision, evaluateGuardianAdmission,
    evaluateStaleReview, evaluatePromotionGate, evaluateCompletedPanelCleanup]

/-- The decision on findings: the gravest. -/
def decisionOf (findings : List Finding) : Decision :=
  if findings.any fun f => f.decision = .deny then .deny
  else if findings.any fun f => f.decision = .escalate then .escalate
  else .pass

/-- What `decide` returns. -/
structure Verdict where
  decision : Decision
  findings : List Finding
  escalationReasons : List JsString
  modelCallsRequired : ℕ

/-- The verdict on findings. -/
def verdictOf (findings : List Finding) : Verdict where
  decision := decisionOf findings
  findings := findings
  escalationReasons :=
    if decisionOf findings = .escalate then
      ((findings.filter fun f => f.decision = .escalate).map fun f => f.gate.getD f.id).eraseDups
    else []
  modelCallsRequired := if decisionOf findings = .escalate then 1 else 0

/-- `decide` -/
def decide (facts : Facts) : Except NativeError Verdict := do
  let findings ← evaluators.mapM fun evaluate => evaluate facts
  return verdictOf findings.flatten

end MetaframerKernel.TokenGuard
