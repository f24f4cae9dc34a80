import MetaframerKernel.Domain.HexDigest
import MetaframerKernel.Tools.ActionSdkDistribution

/-!
# Consumer diagnostics

The runner that a consumer distribution ships, `diagnose.mjs`: ten gates over the files of the
directory it runs in, and a report when every gate holds.

## Main definitions

* `diagnose`: the runner.

## Main results

* `diagnose_rendered`: what the runner says of a rendered distribution, written to a directory;
* `isHealthy_rendered_iff`: it is healthy exactly when the contract names an outcome.
-/

namespace MetaframerKernel.ActionSdk

open Js Node RunRecord

/-- The codes of the runner's failures. -/
inductive FailureCode where
  | missingFile
  | malformedManifest
  | versionMismatch
  | unsafePath
  | integrityMismatch
  | diagnosticsMismatch
  | moduleEvaluationFailed
deriving DecidableEq

/-- `fail`: the code and the detail that the runner prints before it exits. -/
structure Failure where
  code : FailureCode
  detail : JsString

/-- `CHECK_NAMES` -/
def checkNames : List JsString :=
  [lit "manifest_present", lit "manifest_parsed", lit "manifest_shape", lit "distribution_version",
    lit "module_path_safety", lit "diagnostics_path_safety", lit "module_present",
    lit "module_integrity", lit "diagnostics_integrity", lit "module_evaluation"]

/-! ## The manifest -/

/-- The fields of a manifest of the declared shape. -/
structure Manifest where
  distributionVersion : JsString
  coordinate : JsString
  actionKind : JsString
  actionName : JsString
  actionVersion : JsNumber
  modulePath : JsString
  diagnosticsPath : JsString
  integrity : JsString
  diagnostics : JsString

/-- The string that `isNonEmptyString` admits. -/
def nonEmptyString? : Option Json → Option JsString
  | some (.str s) => if isNonBlank s then some s else none
  | _ => none

/-- `SHA256.test(value)`: `/^sha256:[0-9a-f]{64}$/`. -/
def isSha256 (s : JsString) : Bool := s.take 7 == lit "sha256:" && isHex64 (s.drop 7)

/-- A digest of the declared form. -/
def sha256? (v : Option Json) : Option JsString := do
  let s ← nonEmptyString? v
  if isSha256 s then some s else none

/-- The string under a key. -/
def stringAt? (m : Members) (key : JsString) : Option JsString := (m.lookup key).bind string?

/-- The number under a key that `Number.isSafeInteger` admits. -/
def safeIntegerAt? (m : Members) (key : JsString) : Option JsNumber :=
  match m.lookup key with
  | some (.num n) => if n.safeInteger?.isSome then some n else none
  | _ => none

/-- `manifest_shape` -/
def manifestShape? (m : Members) : Option Manifest := do
  guard (isInteger 1 (m.lookup (lit "schemaVersion")))
  guard (isString (lit "esm") (m.lookup (lit "format")))
  let distributionVersion ← nonEmptyString? (m.lookup (lit "distributionVersion"))
  let coordinate ← nonEmptyString? (m.lookup (lit "coordinate"))
  let action ← ordinaryObject? (m.lookup (lit "action"))
  let actionKind ← stringAt? action (lit "kind")
  let actionName ← stringAt? action (lit "name")
  let actionVersion ← safeIntegerAt? action (lit "version")
  let modulePath ← nonEmptyString? (m.lookup (lit "modulePath"))
  let diagnosticsPath ← nonEmptyString? (m.lookup (lit "diagnosticsPath"))
  -- `/^sha256-[0-9a-f]{64}$/`
  let integrity ← sha256? (m.lookup (lit "integrity"))
  let diagnostics ← sha256? (m.lookup (lit "diagnostics"))
  return { distributionVersion, coordinate, actionKind, actionName, actionVersion, modulePath,
           diagnosticsPath, integrity, diagnostics }

/-- `{ kind: action.kind, name: action.name, version: action.version }` -/
def Manifest.action (manifest : Manifest) : Json :=
  .obj [(lit "kind", .str manifest.actionKind), (lit "name", .str manifest.actionName),
    (lit "version", .num manifest.actionVersion)]

/-! ## The gates -/

/-- `resolveInsideRoot` -/
def resolveInsideRoot (root : AbsolutePath) (value : JsString) : Option AbsolutePath :=
  if isNonBlank value = false ∨ isAbsolute value then none
  else
    let path := relative root (resolve root value)
    if path = [] ∨ isAbsolute path ∨ (lit "..").isPrefixOf path then none
    else some (resolve root value)

/-- A value that a gate needs, or the failure of the gate. -/
def orFail {α : Type} (o : Option α) (code : FailureCode) (detail : JsString) : Except Failure α :=
  match o with
  | some a => .ok a
  | none => .error ⟨code, detail⟩

/-- A gate that holds, or its failure. -/
def gate (holds : Bool) (code : FailureCode) (detail : JsString) : Except Failure Unit :=
  if holds then .ok () else .error ⟨code, detail⟩

/-- What the runner asks of an evaluated module. -/
structure Surface where
  exportsOk : Bool
  outcomesOk : Bool
  errorEnvelopeOk : Bool

/-- `Object.fromEntries(names.map((field) => [field, "x"]))` -/
def fieldsOfX (names : List JsString) : JsValue := fromEntries names (.str (lit "x"))

/-- The `try` block of `module_evaluation`; what `buildActionSpec` returns is frozen. -/
def surfaceOf (mod : Module) (manifest : Manifest) : Surface :=
  -- the module is asked to build an action whose every field is `"x"`
  match mod.buildActionSpec (fieldsOfX mod.actionFields) with
  | .error _ => ⟨false, false, false⟩
  | .ok built =>
      { exportsOk :=
          mod.actionKind == manifest.actionKind && mod.actionName == manifest.actionName &&
            mod.actionVersion.unsignZero == manifest.actionVersion.unsignZero &&
            built.length == mod.actionFields.length &&
            mod.actionFields.all fun field => (built.map Prod.fst).contains field
        outcomesOk :=
          mod.outcomes.length > 0 && mod.outcomes.all fun outcome => mod.isOutcome (.string outcome)
        errorEnvelopeOk := mod.isErrorEnvelope (fieldsOfX mod.errorEnvelopeFields) }

/-- The surface has all it declares. -/
def Surface.ok (surface : Surface) : Bool :=
  surface.exportsOk && surface.outcomesOk && surface.errorEnvelopeOk

/-- The report of a run in which every gate holds. -/
def reportOf (manifest : Manifest) (computedIntegrity computedDiagnostics : JsString) : Json :=
  .obj [(lit "schemaVersion", .num (.ofInt 1)), (lit "status", .str (lit "healthy")),
    (lit "coordinate", .str manifest.coordinate),
    (lit "distributionVersion", .str manifest.distributionVersion),
    (lit "action", manifest.action),
    (lit "integrity", .obj [(lit "declared", .str manifest.integrity),
      (lit "computed", .str computedIntegrity), (lit "ok", .bool true)]),
    (lit "diagnostics", .obj [(lit "declared", .str manifest.diagnostics),
      (lit "computed", .str computedDiagnostics),
      (lit "diagnosticsPath", .str manifest.diagnosticsPath), (lit "ok", .bool true)]),
    (lit "module", .obj [(lit "modulePath", .str manifest.modulePath),
      (lit "evaluated", .bool true), (lit "exportsOk", .bool true), (lit "outcomesOk", .bool true),
      (lit "errorEnvelopeOk", .bool true)]),
    (lit "checks", .arr (checkNames.map fun name =>
      .obj [(lit "name", .str name), (lit "ok", .bool true)]))]

section Runner

variable (sha256 : ByteArray → JsString)

/-- The digest recomputed over the module. -/
def integrityOf (manifest : Manifest) (moduleSource : List Char) : JsString :=
  digest sha256 (.obj [(lit "schemaVersion", .num (.ofInt 1)),
    (lit "distributionVersion", .str manifest.distributionVersion),
    (lit "coordinate", .str manifest.coordinate), (lit "action", manifest.action),
    (lit "modulePath", .str manifest.modulePath), (lit "moduleSource", .str (ofText moduleSource))])

/-- The digest recomputed over the runner. -/
def runnerDigestOf (manifest : Manifest) (diagnosticsSource : List Char) : JsString :=
  digest sha256 (.obj [(lit "schemaVersion", .num (.ofInt 1)),
    (lit "distributionVersion", .str manifest.distributionVersion),
    (lit "coordinate", .str manifest.coordinate), (lit "integrity", .str manifest.integrity),
    (lit "diagnosticsPath", .str manifest.diagnosticsPath),
    (lit "diagnosticsSource", .str (ofText diagnosticsSource))])

/-- `main` of `diagnose.mjs`, run in `root` with `argv2` as its argument. -/
def diagnose (argv2 : Option JsString) (root : AbsolutePath) (fs : FileSystem) :
    Except Failure Json := do
  let manifestRaw ← orFail (fs.readText (root ++ [lit "manifest.json"])) .missingFile
    (lit "manifest.json is not present in the payload root")
  let manifest ← orFail (jsonParse manifestRaw) .malformedManifest
    (lit "manifest.json is not valid JSON")
  let members ← orFail (ordinaryObject? (some manifest)) .malformedManifest
    (lit "manifest.json must decode to an ordinary object")
  let manifest ← orFail (manifestShape? members) .malformedManifest
    (lit "manifest.json is missing a required field or declares one in the wrong shape")
  -- the manifest has its shape before the version is compared
  let expectedVersion ← orFail (argv2.filter isNonBlank) .versionMismatch
    (lit "no expected distribution version was supplied on the command line")
  gate (manifest.distributionVersion == expectedVersion) .versionMismatch
    (lit "expected " ++ expectedVersion ++ lit ", the payload declares " ++
      manifest.distributionVersion)
  let resolvedModule ← orFail (resolveInsideRoot root manifest.modulePath) .unsafePath
    (lit "modulePath does not stay inside the payload root: " ++ manifest.modulePath)
  let resolvedDiagnostics ← orFail (resolveInsideRoot root manifest.diagnosticsPath) .unsafePath
    (lit "diagnosticsPath does not stay inside the payload root: " ++ manifest.diagnosticsPath)
  -- nothing is read outside the root: both paths have been resolved inside it
  let moduleSource ← orFail (fs.readText resolvedModule) .missingFile
    (lit "the generated module is not present: " ++ manifest.modulePath)
  let diagnosticsSource ← orFail (fs.readText resolvedDiagnostics) .missingFile
    (lit "the shipped runner is not present: " ++ manifest.diagnosticsPath)
  let computedIntegrity := integrityOf sha256 manifest moduleSource
  gate (computedIntegrity == manifest.integrity) .integrityMismatch
    (lit "the generated module bytes do not match the declared integrity digest")
  let computedDiagnostics := runnerDigestOf sha256 manifest diagnosticsSource
  gate (computedDiagnostics == manifest.diagnostics) .diagnosticsMismatch
    (lit "the shipped runner bytes do not match the declared diagnostics digest")
  -- the module is evaluated last, when its bytes are known to be the declared ones
  let mod ← orFail (evaluateModule moduleSource) .moduleEvaluationFailed
    (lit "the generated module could not be evaluated")
  gate (surfaceOf mod manifest).ok .moduleEvaluationFailed
    (lit "the generated module does not expose its declared action surface")
  return reportOf manifest computedIntegrity computedDiagnostics

end Runner

/-! ## The declared paths -/

/-- A unit that is no separator lies in one of the parts. -/
theorem exists_mem_splitOnP {α : Type} {p : α → Bool} {l : List α} {a : α} (ha : a ∈ l)
    (hp : p a = false) : ∃ part ∈ l.splitOnP p, a ∈ part := by
  induction l with
  | nil => cases ha
  | cons b l ih =>
    obtain ⟨first, parts, hparts⟩ := List.exists_cons_of_ne_nil (List.splitOnP_ne_nil p l)
    rw [List.splitOnP_cons_eq_if_modifyHead, hparts, List.modifyHead_cons]
    rw [hparts] at ih
    by_cases hb : p b = true
    · rw [if_pos hb]
      have hne : a ≠ b := by
        rintro rfl
        rw [hp] at hb
        cases hb
      obtain ⟨part, hmem, hin⟩ := ih ((List.mem_cons.mp ha).resolve_left hne)
      exact ⟨part, List.mem_cons_of_mem _ hmem, hin⟩
    · rw [if_neg hb]
      rcases List.mem_cons.mp ha with rfl | ha
      · exact ⟨_, List.mem_cons_self, List.mem_cons_self⟩
      · obtain ⟨part, hmem, hin⟩ := ih ha
        rcases List.mem_cons.mp hmem with rfl | hmem
        · exact ⟨_, List.mem_cons_self, List.mem_cons_of_mem _ hin⟩
        · exact ⟨part, List.mem_cons_of_mem _ hmem, hin⟩

/-- The name of an act opens with a letter. -/
theorem exists_eq_cons_of_isActionName {s : JsString} (h : isActionName s = true) :
    ∃ u rest, s = u :: rest ∧ lowerClass u = true := by
  rw [isActionName, Bool.and_eq_true, isActionNameForm, isDottedName, Bool.and_eq_true,
    List.all_eq_true] at h
  obtain ⟨-, -, hwords⟩ := h
  cases s with
  | nil => exact absurd (hwords [] (by simp)) (by decide)
  | cons u rest =>
    refine ⟨u, rest, rfl, ?_⟩
    obtain ⟨first, parts, hparts⟩ :=
      List.exists_cons_of_ne_nil (List.splitOnP_ne_nil (charClass '.') rest)
    rw [List.splitOnP_cons_eq_if_modifyHead, hparts, List.modifyHead_cons] at hwords
    split at hwords
    · exact absurd (hwords [] List.mem_cons_self) (by decide)
    · have hfirst := hwords (u :: first) List.mem_cons_self
      rw [isLowerWord, Bool.and_eq_true] at hfirst
      exact hfirst.1

/-- The name of an act has no separator of paths. -/
theorem slash_notMem_of_isActionName {s : JsString} (h : isActionName s = true) : slash ∉ s := by
  intro hmem
  rw [isActionName, Bool.and_eq_true, isActionNameForm, isDottedName, Bool.and_eq_true,
    List.all_eq_true] at h
  obtain ⟨part, hpart, hin⟩ := exists_mem_splitOnP hmem (by decide : charClass '.' slash = false)
  have hword := h.2.2 part hpart
  rw [isLowerWord, Bool.and_eq_true, List.all_eq_true] at hword
  exact absurd (hword.2 slash hin) (by decide)

/-- The text of a number has no separator of paths. -/
theorem slash_notMem_toText (n : JsNumber) : slash ∉ n.toText := by
  cases n with
  | finite x =>
    have hchars : '/' ∉ x.text := fun h => absurd (isNumberChar_of_mem_text h) (by decide)
    exact notMem_ofText (by decide) hchars
  | infinity neg => cases neg <;> decide
  | nan => decide

/-- A name that opens with no dot is no special step. -/
theorem isName_cons {u : CodeUnit} {rest : JsString} (hdot : u ≠ 0x2E)
    (hslash : slash ∉ u :: rest) : IsName (u :: rest) := by
  refine ⟨List.cons_ne_nil _ _, fun h => ?_, fun h => ?_, hslash⟩
  · exact hdot (List.cons.inj h).1
  · exact hdot (List.cons.inj h).1

/-- The names of the path of a module. -/
def moduleNames (contract : ActionContract) : List JsString :=
  [lit "actions", contract.name,
    lit "v" ++ (JsNumber.ofInt contract.version).toText ++ lit ".mjs"]

/-- A module path has a name. -/
theorem moduleNames_ne_nil (contract : ActionContract) : moduleNames contract ≠ [] :=
  List.cons_ne_nil _ _

/-- The module path is made of its names. -/
theorem modulePathOf_eq (contract : ActionContract) :
    modulePathOf contract = pathOf (moduleNames contract) := by
  have hactions : lit "actions/" = lit "actions" ++ [slash] := by decide
  have hversion : lit "/v" = [slash] ++ lit "v" := by decide
  rw [modulePathOf, hactions, hversion]
  simp [pathOf, moduleNames, List.intercalate]

/-- The name of a module opens with a letter. -/
theorem isName_version {version : JsString} (hslash : slash ∉ lit "v" ++ version ++ lit ".mjs") :
    IsName (lit "v" ++ version ++ lit ".mjs") :=
  isName_cons (by decide) hslash

/-- All of them are names of entries. -/
theorem isName_moduleNames (contract : ActionContract) :
    ∀ name ∈ moduleNames contract, IsName name := by
  intro name hname
  simp only [moduleNames, List.mem_cons, List.not_mem_nil, or_false] at hname
  rcases hname with rfl | rfl | rfl
  · exact ⟨by decide, by decide, by decide, by decide⟩
  · obtain ⟨u, rest, heq, hlower⟩ := exists_eq_cons_of_isActionName contract.nameOk
    have hslash := slash_notMem_of_isActionName contract.nameOk
    rw [heq] at hslash ⊢
    refine isName_cons ?_ hslash
    rintro rfl
    exact absurd hlower (by decide)
  · have hslash : slash ∉ lit "v" ++ (JsNumber.ofInt contract.version).toText ++ lit ".mjs" := by
      rw [List.mem_append, List.mem_append, not_or, not_or]
      exact ⟨⟨by decide, slash_notMem_toText _⟩, by decide⟩
    exact isName_version hslash

/-- The manifest path is a name. -/
theorem isName_manifestPath : IsName manifestPath :=
  ⟨by decide, by decide, by decide, by decide⟩

/-- The runner's path is a name. -/
theorem isName_diagnosticsPath : IsName diagnosticsPath :=
  ⟨by decide, by decide, by decide, by decide⟩

/-- The path of one name is the name. -/
theorem pathOf_singleton (name : JsString) : pathOf [name] = name := by
  simp [pathOf]

/-- A name resolves to the entry of that name. -/
theorem resolve_of_isName {name : JsString} (h : IsName name) (root : AbsolutePath) :
    resolve root name = root ++ [name] := by
  have hresolve := resolve_pathOf (List.cons_ne_nil name []) (by simpa using h) root
  rwa [pathOf_singleton] at hresolve

/-- The module path resolves below the root. -/
theorem resolve_modulePathOf (contract : ActionContract) (root : AbsolutePath) :
    resolve root (modulePathOf contract) = root ++ moduleNames contract := by
  rw [modulePathOf_eq]
  exact resolve_pathOf (moduleNames_ne_nil contract) (isName_moduleNames contract) root

/-- A path of plain names stays inside the root. -/
theorem resolveInsideRoot_pathOf {names : List JsString} {u : CodeUnit}
    (hne : names ≠ []) (h : ∀ name ∈ names, IsName name)
    (hhead : (pathOf names).head? = some u) (hkept : isTrimmed u = false) (hdot : u ≠ 0x2E)
    (root : AbsolutePath) : resolveInsideRoot root (pathOf names) = some (root ++ names) := by
  have hblank : isNonBlank (pathOf names) = true :=
    isNonBlank_of_mem (List.mem_of_mem_head? hhead) hkept
  have hinside : ¬(pathOf names = [] ∨ isAbsolute (pathOf names) = true ∨
      (lit "..").isPrefixOf (pathOf names) = true) := by
    rintro (hempty | habsolute | hup)
    · rw [hempty] at hhead
      cases hhead
    · rw [isAbsolute_pathOf h] at habsolute
      cases habsolute
    · obtain ⟨rest, hrest⟩ := List.isPrefixOf_iff_prefix.mp hup
      rw [← hrest] at hhead
      exact hdot (Option.some.inj hhead).symm
  have houtside : ¬(isNonBlank (pathOf names) = false ∨ isAbsolute (pathOf names) = true) := by
    rw [hblank, isAbsolute_pathOf h]
    decide
  rw [resolveInsideRoot, if_neg houtside]
  simp only [relative_resolve hne h]
  rw [if_neg hinside, resolve_pathOf hne h]

/-- A module of distinct, safe fields exposes the surface it declares, as long as it has an
outcome. -/
theorem surfaceOf_ok_iff {mod : Module} {manifest : Manifest} (hfields : mod.actionFields.Nodup)
    (hproto : protoKey ∉ mod.actionFields) (henvelope : mod.errorEnvelopeFields.Nodup)
    (hkind : mod.actionKind = manifest.actionKind) (hname : mod.actionName = manifest.actionName)
    (hversion : mod.actionVersion = manifest.actionVersion) :
    (surfaceOf mod manifest).ok = true ↔ mod.outcomes ≠ [] := by
  obtain ⟨built, hbuilt, hkeys⟩ :=
    Module.buildActionSpec_fromEntries hfields hproto (.str (lit "x"))
  have henvelopeOk := Module.isErrorEnvelope_fromEntries henvelope (.str (lit "x"))
  have hlength : built.length = mod.actionFields.length := by
    rw [← hkeys, List.length_map]
  have hall : (mod.actionFields.all fun field => (built.map Prod.fst).contains field) = true := by
    rw [hkeys, List.all_eq_true]
    exact fun field hfield => List.contains_iff_mem.mpr hfield
  have houtcomes : (mod.outcomes.all fun outcome => mod.isOutcome (.string outcome)) = true := by
    rw [List.all_eq_true]
    exact fun outcome houtcome => List.contains_iff_mem.mpr houtcome
  unfold surfaceOf fieldsOfX
  rw [hbuilt]
  simp only [Surface.ok, henvelopeOk, hkind, hname, hversion, hlength, beq_self_eq_true,
    Bool.true_and, Bool.and_true, hall, houtcomes, decide_eq_true_iff, gt_iff_lt,
    List.length_pos_iff]

section Rendered

variable (sha256 : ByteArray → JsString) (notice : Notice) (diagnosticsSource : List Char)
  (contract : ActionContract) (root : AbsolutePath) (fs : FileSystem)

/-- The files are written at the three paths below the root. -/
theorem resolve_consumerFilesOf (distributionVersion : JsString) :
    (consumerFilesOf sha256 notice diagnosticsSource contract distributionVersion).map
      (fun file => resolve root file.1) =
        [root ++ [manifestPath], root ++ moduleNames contract, root ++ [diagnosticsPath]] :=
  congrArg₂ List.cons (resolve_of_isName isName_manifestPath root)
    (congrArg₂ List.cons (resolve_modulePathOf contract root)
      (congrArg₂ List.cons (resolve_of_isName isName_diagnosticsPath root) rfl))

/-- No two files are written at one path. -/
theorem nodup_resolve_consumerFilesOf (distributionVersion : JsString) :
    ((consumerFilesOf sha256 notice diagnosticsSource contract distributionVersion).map
      fun file => resolve root file.1).Nodup := by
  rw [resolve_consumerFilesOf]
  have hnames : [[manifestPath], moduleNames contract, [diagnosticsPath]].Nodup := by
    simp [moduleNames, show manifestPath ≠ diagnosticsPath by decide]
  exact hnames.map (List.append_right_injective root)

/-- The manifest of a rendered distribution. -/
def renderedManifest (distributionVersion : JsString) : Manifest where
  distributionVersion
  coordinate := coordinateOf contract
  actionKind := contract.kind.name
  actionName := contract.name
  actionVersion := .ofInt contract.version
  modulePath := modulePathOf contract
  diagnosticsPath := diagnosticsPath
  integrity := digest sha256 (integrityInput notice contract distributionVersion)
  diagnostics := diagnosticsOf sha256 notice diagnosticsSource contract distributionVersion

/-- The manifest names the version it was rendered for. -/
@[simp]
theorem renderedManifest_distributionVersion (version : JsString) :
    (renderedManifest sha256 notice diagnosticsSource contract version).distributionVersion =
      version := rfl

/-- The manifest names the path of the module. -/
@[simp]
theorem renderedManifest_modulePath (version : JsString) :
    (renderedManifest sha256 notice diagnosticsSource contract version).modulePath =
      modulePathOf contract := rfl

/-- The manifest names the path of the runner. -/
@[simp]
theorem renderedManifest_diagnosticsPath (version : JsString) :
    (renderedManifest sha256 notice diagnosticsSource contract version).diagnosticsPath =
      diagnosticsPath := rfl

/-- The manifest carries the digest of what its integrity covers. -/
@[simp]
theorem renderedManifest_integrity (version : JsString) :
    (renderedManifest sha256 notice diagnosticsSource contract version).integrity =
      digest sha256 (integrityInput notice contract version) := rfl

/-- The manifest carries the diagnostics. -/
@[simp]
theorem renderedManifest_diagnostics (version : JsString) :
    (renderedManifest sha256 notice diagnosticsSource contract version).diagnostics =
      diagnosticsOf sha256 notice diagnosticsSource contract version := rfl

/-- The coordinate is not blank. -/
theorem isNonBlank_coordinateOf : isNonBlank (coordinateOf contract) = true := by
  have hat : (0x40 : CodeUnit) ∈ coordinateOf contract := by
    rw [coordinateOf, List.append_assoc]
    exact List.mem_append_right _ (List.mem_append_left _ (by decide))
  exact isNonBlank_of_mem hat (by decide)

/-- The module path is not blank. -/
theorem isNonBlank_modulePathOf : isNonBlank (modulePathOf contract) = true := by
  have hhead : (0x61 : CodeUnit) ∈ modulePathOf contract := List.mem_cons_self
  exact isNonBlank_of_mem hhead (by decide)

variable {sha256}

/-- A digest passes the check of its form. -/
theorem sha256?_digest (hsha : ∀ bytes, isHex64 (sha256 bytes) = true) (v : Json) :
    sha256? (some (.str (digest sha256 v))) = some (digest sha256 v) := by
  have hdigest : digest sha256 v = lit "sha256:" ++ sha256 (utf8Bytes (ofText v.stringify)) := rfl
  have hblank : isNonBlank (digest sha256 v) = true := by
    have hhead : (0x73 : CodeUnit) ∈ digest sha256 v := List.mem_cons_self
    exact isNonBlank_of_mem hhead (by decide)
  have hform : isSha256 (digest sha256 v) = true := by
    rw [isSha256, hdigest, List.take_left' (by decide), List.drop_left' (by decide), hsha]
    decide
  rw [sha256?, nonEmptyString?, if_pos hblank]
  simp [hform]

/-- A rendered manifest has the declared shape. -/
theorem manifestShape?_consumerManifestOf (hsha : ∀ bytes, isHex64 (sha256 bytes) = true)
    {distributionVersion : JsString} (h : isNonBlank distributionVersion = true) :
    manifestShape? (consumerManifestOf sha256 notice diagnosticsSource contract
        distributionVersion) =
      some (renderedManifest sha256 notice diagnosticsSource contract distributionVersion) := by
  have hversion : nonEmptyString? (some (.str distributionVersion)) = some distributionVersion :=
    if_pos h
  have hcoordinate : nonEmptyString? (some (.str (coordinateOf contract))) =
      some (coordinateOf contract) := if_pos (isNonBlank_coordinateOf contract)
  have hmodule : nonEmptyString? (some (.str (modulePathOf contract))) =
      some (modulePathOf contract) := if_pos (isNonBlank_modulePathOf contract)
  have hrunner : nonEmptyString? (some (.str diagnosticsPath)) = some diagnosticsPath := by decide
  have hsafe : safeIntegerAt? (actionOf contract).members (lit "version") =
      some (.ofInt contract.version) := by
    have hlookup : (actionOf contract).members.lookup (lit "version") =
        some (.num (.ofInt contract.version)) := rfl
    rw [safeIntegerAt?, hlookup]
    simp only [safeInteger?_of_isActionVersion contract.versionOk]
    rfl
  have hschema : isInteger 1 (some (.num (.ofInt 1))) = true := by
    rw [isInteger, JsNumber.safeInteger?_ofInt (by decide)]
    rfl
  have hformat : isString (lit "esm") (some (.str (lit "esm"))) = true := by decide
  -- Each field the gate reads is a member of the rendered manifest, at the place of its key.
  have hlookups : ∀ k v, [(lit "schemaVersion", Json.num (.ofInt 1)),
      (lit "format", .str (lit "esm")), (lit "distributionVersion", .str distributionVersion),
      (lit "coordinate", .str (coordinateOf contract)), (lit "action", actionOf contract),
      (lit "modulePath", .str (modulePathOf contract)),
      (lit "integrity", .str (digest sha256 (integrityInput notice contract distributionVersion))),
      (lit "diagnosticsPath", .str diagnosticsPath),
      (lit "diagnostics", .str (diagnosticsOf sha256 notice diagnosticsSource contract
        distributionVersion))].lookup k = some v → (consumerManifestOf sha256 notice
          diagnosticsSource contract distributionVersion).lookup k = some v := fun _ _ h => h
  rw [manifestShape?, hlookups (lit "schemaVersion") _ rfl, hlookups (lit "format") _ rfl,
    hlookups (lit "distributionVersion") _ rfl, hlookups (lit "coordinate") _ rfl,
    hlookups (lit "action") _ rfl, hlookups (lit "modulePath") _ rfl,
    hlookups (lit "integrity") _ rfl, hlookups (lit "diagnosticsPath") _ rfl,
    hlookups (lit "diagnostics") _ rfl, hschema, hformat, hversion, hcoordinate, hmodule, hrunner,
    diagnosticsOf, sha256?_digest hsha, sha256?_digest hsha, ← diagnosticsOf]
  have haction : ordinaryObject? (some (actionOf contract)) =
      some (actionOf contract).members := rfl
  have hkind : stringAt? (actionOf contract).members (lit "kind") = some contract.kind.name := rfl
  have hname : stringAt? (actionOf contract).members (lit "name") = some contract.name := rfl
  simp only [guard, if_true, bind, Option.bind, pure, haction, hkind, hname, hsafe]
  rfl

/-- The module path stays inside the root. -/
theorem resolveInsideRoot_modulePathOf :
    resolveInsideRoot root (modulePathOf contract) = some (root ++ moduleNames contract) := by
  have hhead : (pathOf (moduleNames contract)).head? = some 0x61 := by
    rw [← modulePathOf_eq]
    rfl
  rw [modulePathOf_eq]
  exact resolveInsideRoot_pathOf (moduleNames_ne_nil contract) (isName_moduleNames contract) hhead
    (by decide) (by decide) root

/-- The runner's path stays inside the root. -/
theorem resolveInsideRoot_diagnosticsPath :
    resolveInsideRoot root diagnosticsPath = some (root ++ [diagnosticsPath]) := by
  have hnames : ∀ name ∈ [diagnosticsPath], IsName name := by
    simpa using isName_diagnosticsPath
  have hinside := @resolveInsideRoot_pathOf _ 0x64 (List.cons_ne_nil _ _) hnames (by decide)
    (by decide) (by decide) root
  rwa [pathOf_singleton] at hinside

/-- What the runner says of a rendered distribution, written unchanged to a directory: it is healthy
as long as the contract names an outcome. -/
theorem diagnose_rendered (hsha : ∀ bytes, isHex64 (sha256 bytes) = true)
    {distributionVersion : JsString} (h : isNonBlank distributionVersion = true) :
    diagnose sha256 (some distributionVersion) root
        (fs.writeFiles root
          (consumerFilesOf sha256 notice diagnosticsSource contract distributionVersion)) =
      if contract.outcomes.names = [] then
        .error ⟨.moduleEvaluationFailed,
          lit "the generated module does not expose its declared action surface"⟩
      else
        .ok (reportOf
          (renderedManifest sha256 notice diagnosticsSource contract distributionVersion)
          (digest sha256 (integrityInput notice contract distributionVersion))
          (diagnosticsOf sha256 notice diagnosticsSource contract distributionVersion)) := by
  have hread {path : JsString} {names : List JsString} {text : List Char}
      (hfile : (path, text) ∈ consumerFilesOf sha256 notice diagnosticsSource contract
        distributionVersion) (hresolve : resolve root path = root ++ names) :
      (fs.writeFiles root (consumerFilesOf sha256 notice diagnosticsSource contract
        distributionVersion)).readText (root ++ names) = some text := by
    rw [← hresolve]
    exact FileSystem.readText_writeFiles (nodup_resolve_consumerFilesOf sha256 notice
      diagnosticsSource contract root distributionVersion) fs hfile
  have hmanifest := hread (List.mem_cons_self) (resolve_of_isName isName_manifestPath root)
  have hmodule := hread (List.mem_cons_of_mem _ List.mem_cons_self)
    (resolve_modulePathOf contract root)
  have hrunner := hread (List.mem_cons_of_mem _ (List.mem_cons_of_mem _ List.mem_cons_self))
    (resolve_of_isName isName_diagnosticsPath root)
  have hparsed := jsonParse_of_stable
    (stable_consumerManifestOf sha256 notice diagnosticsSource contract distributionVersion)
  have hshape := manifestShape?_consumerManifestOf notice diagnosticsSource contract hsha h
  have hexpected : (some distributionVersion).filter isNonBlank = some distributionVersion := by
    rw [Option.filter_some, if_pos h]
  have hsurface := @surfaceOf_ok_iff (moduleOf contract)
    (renderedManifest sha256 notice diagnosticsSource contract distributionVersion)
    contract.fields.nodup (fun hmem => (contract.fields.identifiers _ hmem).2.2 List.mem_cons_self)
    contract.errorEnvelopeFields.nodup rfl rfl rfl
  have hintegrity : integrityOf sha256
      (renderedManifest sha256 notice diagnosticsSource contract distributionVersion)
        (renderActionSdk notice contract) =
      digest sha256 (integrityInput notice contract distributionVersion) := by
    simp only [integrityOf, integrityInput, Manifest.action, actionOf, renderedManifest]
  have hdiagnostics : runnerDigestOf sha256
      (renderedManifest sha256 notice diagnosticsSource contract distributionVersion)
        diagnosticsSource =
      diagnosticsOf sha256 notice diagnosticsSource contract distributionVersion := by
    simp only [runnerDigestOf, diagnosticsOf, diagnosticsInput, renderedManifest, objectLiteral,
      List.filterMap_cons, List.filterMap_nil, Option.map_some]
  unfold diagnose
  rw [show lit "manifest.json" = manifestPath from rfl, hmanifest]
  simp only [orFail, bind, Except.bind, hparsed, ordinaryObject?, hshape, hexpected,
    renderedManifest_distributionVersion, renderedManifest_modulePath,
    renderedManifest_diagnosticsPath, renderedManifest_integrity, renderedManifest_diagnostics,
    gate, beq_self_eq_true, if_true, resolveInsideRoot_modulePathOf,
    resolveInsideRoot_diagnosticsPath, hmodule, hrunner, hintegrity, hdiagnostics,
    evaluateModule_renderActionSdk]
  -- Every gate but the last holds; the last asks the module for an outcome.
  by_cases houtcomes : contract.outcomes.names = []
  · rw [if_neg (fun hok => hsurface.mp hok houtcomes), if_pos houtcomes]
  · rw [if_pos (hsurface.mpr houtcomes), if_neg houtcomes]
    rfl
/-- The runner exits with a report of health in which every gate holds. -/
def IsHealthy (o : Except Failure Json) : Prop :=
  ∃ report, o = .ok report ∧ report.members.lookup (lit "status") = some (.str (lit "healthy")) ∧
    report.members.lookup (lit "checks") = some (.arr (checkNames.map fun name =>
      .obj [(lit "name", .str name), (lit "ok", .bool true)]))

/-- A rendered distribution is healthy where it is written exactly when its contract names an
outcome. -/
theorem isHealthy_rendered_iff (hsha : ∀ bytes, isHex64 (sha256 bytes) = true)
    {distributionVersion : JsString} (h : isNonBlank distributionVersion = true) :
    ∃ distribution, renderConsumerDiagnosticsDistribution sha256 notice diagnosticsSource contract
        (.string distributionVersion) = .ok distribution ∧
      (IsHealthy (diagnose sha256 (some distributionVersion) root
          (fs.writeFiles root distribution.files)) ↔ contract.outcomes.names ≠ []) := by
  refine ⟨_, renderConsumerDiagnosticsDistribution_eq_ok sha256 notice diagnosticsSource contract h,
    ?_⟩
  rw [diagnose_rendered notice diagnosticsSource contract root fs hsha h]
  by_cases houtcomes : contract.outcomes.names = []
  · rw [if_pos houtcomes]
    refine iff_of_false ?_ (not_not.mpr houtcomes)
    rintro ⟨report, hreport, -⟩
    cases hreport
  · rw [if_neg houtcomes]
    exact iff_of_true ⟨_, rfl, rfl, rfl⟩ houtcomes

end Rendered

/-- A notice of one line. -/
def sampleNotice : Notice where
  lines := ["Generated from an action contract; do not edit.".toList]
  oneLine := by simp [isLineTerminator]

/-- The text of a runner. -/
def sampleRunner : List Char := "export const diagnose = () => process.exit(0);\n".toList

/-- A contract that answers with the given outcomes. -/
def widgetContract (outcomes : IdentifierList) : ActionContract where
  kind := .command
  name := lit "widget.create"
  version := 1
  fields := ⟨[lit "name"], by decide, by decide⟩
  outcomes
  errorEnvelopeFields := ⟨[lit "code"], by decide, by decide⟩
  nameOk := by decide
  versionOk := isActionVersion_one

/-- With an outcome, the distribution is healthy. -/
theorem isHealthy_rendered_sample :
    ∃ distribution, renderConsumerDiagnosticsDistribution sha256Hex sampleNotice sampleRunner
        (widgetContract ⟨[lit "created"], by decide, by decide⟩) (.string (lit "1.0.0")) =
          .ok distribution ∧
      IsHealthy (diagnose sha256Hex (some (lit "1.0.0")) []
        (FileSystem.writeFiles [] distribution.files fun _ => none)) := by
  obtain ⟨distribution, hrendered, hhealthy⟩ := isHealthy_rendered_iff sampleNotice sampleRunner
    (widgetContract ⟨[lit "created"], by decide, by decide⟩) [] (fun _ => none) isHex64_sha256Hex
    (by decide : isNonBlank (lit "1.0.0") = true)
  exact ⟨distribution, hrendered, hhealthy.mpr (List.cons_ne_nil _ _)⟩

/-- Without one, the same distribution fails its own last gate. -/
theorem rendered_not_isHealthy :
    ∃ distribution, renderConsumerDiagnosticsDistribution sha256Hex sampleNotice sampleRunner
        (widgetContract ⟨[], nofun, List.nodup_nil⟩) (.string (lit "1.0.0")) = .ok distribution ∧
      ¬IsHealthy (diagnose sha256Hex (some (lit "1.0.0")) []
        (FileSystem.writeFiles [] distribution.files fun _ => none)) := by
  have hversion : isNonBlank (lit "1.0.0") = true := by decide
  refine ⟨_, renderConsumerDiagnosticsDistribution_eq_ok sha256Hex sampleNotice
    sampleRunner
    (widgetContract ⟨[], nofun, List.nodup_nil⟩) hversion, ?_⟩
  have hsilent : (widgetContract ⟨[], nofun, List.nodup_nil⟩).outcomes.names = [] := rfl
  rw [diagnose_rendered _ _ _ _ _ isHex64_sha256Hex hversion, if_pos hsilent]
  rintro ⟨report, hreport, -⟩
  cases hreport

end MetaframerKernel.ActionSdk
