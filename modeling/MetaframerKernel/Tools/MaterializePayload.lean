import MetaframerKernel.Node.FileTree
import MetaframerKernel.Tools.ConsumerDiagnostics

/-!
# Materializing a payload

The command that reads a contract, renders its consumer distribution, and writes the files to a
directory that has to be there and to hold nothing.

## Main definitions

* `planOf`: what the command reads and checks before it writes;
* `Materializes`: a run of the command, which may be interrupted while it writes.

## Main results

* `materialize_contained`: a run only ever adds to what is below its target, and one that is refused
  leaves the files as they are;
* `materialize_healthy`: a contract is materialized into a payload that finds itself healthy.
-/

namespace MetaframerKernel.MaterializePayload

open Js Node ActionSdk

/-! ## Refusals -/

/-- The codes of the refusals. -/
inductive ErrorCode where
  | missingArgument
  | contractUnreadable
  | contractRefused
  | targetNotEmpty
  | pathEscape
deriving DecidableEq

/-- `fail`: the code and the detail that are printed before the command exits. -/
structure Refusal where
  code : ErrorCode
  detail : JsString

/-- A code as it is printed. -/
def ErrorCode.name : ErrorCode → JsString
  | missingArgument => lit "MISSING_ARGUMENT"
  | contractUnreadable => lit "CONTRACT_UNREADABLE"
  | contractRefused => lit "CONTRACT_REFUSED"
  | targetNotEmpty => lit "TARGET_NOT_EMPTY"
  | pathEscape => lit "PATH_ESCAPE"

/-- The line of a refusal. -/
def Refusal.line (r : Refusal) : JsString :=
  lit "MATERIALIZE_ERROR:" ++ r.code.name ++ lit " " ++ r.detail ++ lit "\n"

/-- Why the command ends before it writes: a refusal, or what the renderer throws. -/
inductive Failure where
  | refused (r : Refusal)
  | thrown (e : RenderError)

/-- `USAGE` -/
def usage : JsString := lit ("usage: node tools/materialize-distribution-payload.mjs " ++
  "<contract-json> <distribution-version> <existing-empty-target-directory>")

/-- A value, or the refusal that stands for its absence. -/
def orRefuse {α : Type} (o : Option α) (code : ErrorCode) (detail : JsString) : Except Failure α :=
  match o with
  | some a => .ok a
  | none => .error (.refused ⟨code, detail⟩)

/-! ## The plan -/

/-- An argument that `isNonEmptyString` admits. -/
def argument (argv : List JsString) (i : ℕ) (what : String) : Except Failure JsString :=
  orRefuse (argv[i]?.filter isNonBlank) .missingArgument
    (lit "no " ++ lit what ++ lit " was supplied. " ++ usage)

/-- The message of an error. -/
def messageOf : NativeError → JsString
  | .typeError message => message
  | .rangeError message => message

/-- `new ActionContract(options)`, or its refusal. -/
def contractOf (options : Json) : Except Failure ActionContract :=
  match ActionContract.construct (.ofJson options) with
  | .ok contract => .ok contract
  | .error e => .error (.refused ⟨.contractRefused,
      lit "the contract JSON is not an acceptable action contract: " ++ messageOf e⟩)

/-- A file that is planned. -/
structure Planned where
  relPath : JsString
  resolved : AbsolutePath
  text : List Char

/-- One step of the loop over the paths of the payload. -/
def planFile (targetRoot : AbsolutePath) (file : JsString × List Char) : Except Failure Planned :=
  let resolved := resolve targetRoot file.1
  let inside := relative targetRoot resolved
  if isNonBlank file.1 = false ∨ isAbsolute file.1 = true ∨ inside = [] ∨
      (lit "..").isPrefixOf inside = true ∨ isAbsolute inside = true then
    .error (.refused ⟨.pathEscape,
      lit "the generated payload declares a path that does not stay inside the target directory"⟩)
  else .ok ⟨file.1, resolved, file.2⟩

/-- What is written, and what is reported of it. -/
structure Plan where
  coordinate : JsString
  distributionVersion : JsString
  planned : List Planned

/-- The loop that writes. -/
def Plan.calls (plan : Plan) : List MakeCall := plan.planned.flatMap fun file =>
  [.directory file.resolved.dropLast, .file file.resolved (utf8Encode file.text)]

/-- The report. -/
def Plan.report (plan : Plan) : Json :=
  .obj [(lit "schemaVersion", .num (.ofInt 1)), (lit "status", .str (lit "materialized")),
    (lit "coordinate", .str plan.coordinate),
    (lit "distributionVersion", .str plan.distributionVersion),
    (lit "files", .arr (plan.planned.map fun file => .str file.relPath))]

section Command

variable (sha256 : ByteArray → JsString) (notice : Notice) (diagnosticsSource : List Char)
  (cwd : AbsolutePath)

/-- The command up to the loop that writes. -/
def planOf (tree : FileTree) (argv : List JsString) : Except Failure Plan := do
  let contractPath ← argument argv 0 "contract JSON"
  let distributionVersion ← argument argv 1 "distribution version"
  let targetPath ← argument argv 2 "target directory"
  let contractText ← orRefuse (tree.readFile cwd contractPath) .contractUnreadable
    (lit "the contract JSON could not be read at the path supplied")
  let options ← orRefuse (jsonParse contractText) .contractUnreadable
    (lit "the contract file is not valid JSON")
  let _ ← orRefuse (RunRecord.ordinaryObject? (some options)) .contractUnreadable
    (lit "the contract JSON must decode to an ordinary object")
  let contract ← contractOf options
  -- `readdirSync` throws where there is no directory
  let existing ← orRefuse (tree.readDirectory cwd targetPath) .targetNotEmpty
    (lit "the target must be a directory that already exists and holds nothing")
  throwIf (existing.length > 0) (.refused ⟨.targetNotEmpty,
    lit "the target directory already holds " ++ (JsNumber.ofInt existing.length).toText ++
      lit " entry or more"⟩)
  let payload ← (renderConsumerDiagnosticsDistribution sha256 notice diagnosticsSource contract
    (.string distributionVersion)).mapError .thrown
  -- every path is resolved before the first file is written
  let planned ← (sortMembers payload.files).mapM (planFile (resolve cwd targetPath))
  return ⟨payload.coordinate, payload.distributionVersion, planned⟩

/-- How the command ends. -/
inductive Outcome where
  | failed (failure : Failure)
  | interrupted
  | materialized (report : Json)

/-- A run of the command on the files of a system. -/
inductive Materializes (tree : FileTree) (argv : List JsString) : FileTree → Outcome → Prop
  | failed {failure : Failure}
      (hplan : planOf sha256 notice diagnosticsSource cwd tree argv = .error failure) :
      Materializes tree argv tree (.failed failure)
  | interrupted {plan : Plan} {tree' : FileTree}
      (hplan : planOf sha256 notice diagnosticsSource cwd tree argv = .ok plan)
      (hperforms : Performs tree plan.calls tree' false) : Materializes tree argv tree' .interrupted
  | materialized {plan : Plan} {tree' : FileTree}
      (hplan : planOf sha256 notice diagnosticsSource cwd tree argv = .ok plan)
      (hperforms : Performs tree plan.calls tree' true) :
      Materializes tree argv tree' (.materialized plan.report)

end Command

/-! ## What is planned -/

section Planning

variable (sha256 : ByteArray → JsString) (notice : Notice) (diagnosticsSource : List Char)
  (cwd : AbsolutePath)

/-- The names of a path. -/
def namesOf (p : JsString) : List JsString := p.splitOn slash

/-- The plan for a contract. -/
def planFor (contract : ActionContract) (distributionVersion : JsString)
    (targetRoot : AbsolutePath) : Plan where
  coordinate := coordinateOf contract
  distributionVersion
  planned := (sortMembers (consumerFilesOf sha256 notice diagnosticsSource contract
    distributionVersion)).map fun file => ⟨file.1, targetRoot ++ namesOf file.1, file.2⟩

variable {sha256 notice diagnosticsSource cwd}

/-- A path of the payload: names that stay inside any directory. -/
structure StaysInside (p : JsString) : Prop where
  ne_nil : namesOf p ≠ []
  isName : ∀ name ∈ namesOf p, IsName name
  resolve_eq : ∀ root, resolve root p = root ++ namesOf p
  relative_eq : ∀ root, relative root (resolve root p) = p
  isNonBlank : isNonBlank p = true
  isRelative : isAbsolute p = false
  notUp : (lit "..").isPrefixOf p = false

/-- A path of names that begins with a plain letter stays inside. -/
theorem staysInside_pathOf {names : List JsString} {u : CodeUnit} (hne : names ≠ [])
    (h : ∀ name ∈ names, IsName name) (hhead : (pathOf names).head? = some u)
    (hkept : isTrimmed u = false) (hdot : u ≠ 0x2E) : StaysInside (pathOf names) := by
  have hslash : ∀ name ∈ names, slash ∉ name := fun name hname => (h name hname).2.2.2
  have hnames : namesOf (pathOf names) = names :=
    List.splitOn_intercalate slash hslash hne
  refine ⟨hnames.symm ▸ hne, hnames.symm ▸ h, fun root => ?_, relative_resolve hne h,
    isNonBlank_of_mem (List.mem_of_mem_head? hhead) hkept, isAbsolute_pathOf h, ?_⟩
  · rw [hnames, resolve_pathOf hne h]
  · rw [Bool.eq_false_iff]
    intro hup
    obtain ⟨rest, hrest⟩ := List.isPrefixOf_iff_prefix.mp hup
    rw [← hrest] at hhead
    exact hdot (Option.some.inj hhead).symm

/-- No path of the payload escapes. -/
theorem staysInside_of_mem {contract : ActionContract} {distributionVersion : JsString}
    {file : JsString × List Char}
    (h : file ∈ consumerFilesOf sha256 notice diagnosticsSource contract distributionVersion) :
    StaysInside file.1 := by
  have hsingle {name : JsString} {u : CodeUnit} (hname : IsName name) (hhead : name.head? = some u)
      (hkept : isTrimmed u = false) (hdot : u ≠ 0x2E) : StaysInside name := by
    have hpath := pathOf_singleton name
    rw [← hpath]
    exact staysInside_pathOf (List.cons_ne_nil _ _) (by simpa using hname) (hpath.symm ▸ hhead)
      hkept hdot
  simp only [consumerFilesOf, List.mem_cons, List.not_mem_nil, or_false] at h
  rcases h with rfl | rfl | rfl
  · exact @hsingle _ 0x6D isName_manifestPath rfl (by decide) (by decide)
  · have hhead : (pathOf (moduleNames contract)).head? = some 0x61 := by
      rw [← modulePathOf_eq]
      rfl
    rw [modulePathOf_eq]
    exact staysInside_pathOf (moduleNames_ne_nil contract) (isName_moduleNames contract) hhead
      (by decide) (by decide)
  · exact @hsingle _ 0x64 isName_diagnosticsPath rfl (by decide) (by decide)

/-- A file whose path stays inside is planned there. -/
theorem planFile_eq_ok {p : JsString} (h : StaysInside p) (root : AbsolutePath) (text : List Char) :
    planFile root (p, text) = .ok ⟨p, root ++ namesOf p, text⟩ := by
  have hne : p ≠ [] := by
    rintro rfl
    exact absurd h.isNonBlank (by decide)
  have hinside : ¬(isNonBlank p = false ∨ isAbsolute p = true ∨ p = [] ∨
      (lit "..").isPrefixOf p = true ∨ isAbsolute p = true) := by
    rw [h.isNonBlank, h.isRelative, h.notUp]
    simp [hne]
  unfold planFile
  simp only [h.relative_eq]
  rw [if_neg hinside, h.resolve_eq]

/-- The whole payload is planned. -/
theorem mapM_planFile {files : List (JsString × List Char)} (h : ∀ file ∈ files, StaysInside file.1)
    (root : AbsolutePath) : files.mapM (planFile root) =
      .ok (files.map fun file => ⟨file.1, root ++ namesOf file.1, file.2⟩) := by
  induction files with
  | nil => rfl
  | cons file files ih =>
    obtain ⟨hfile, hfiles⟩ := List.forall_mem_cons.mp h
    rw [List.mapM_cons, planFile_eq_ok hfile, ih hfiles]
    rfl

/-- What the command has read when it goes on to write. -/
structure Reads (cwd : AbsolutePath) (tree : FileTree) (argv : List JsString)
    (contract : ActionContract) (distributionVersion targetPath : JsString) : Prop where
  contract : ∃ contractPath text options, argv[0]? = some contractPath ∧
    isNonBlank contractPath = true ∧ tree.readFile cwd contractPath = some text ∧
    jsonParse text = some options ∧ ActionContract.construct (.ofJson options) = .ok contract
  version : argv[1]? = some distributionVersion ∧ isNonBlank distributionVersion = true
  target : argv[2]? = some targetPath ∧ isNonBlank targetPath = true
  empty : tree.readDirectory cwd targetPath = some []

/-- What is missing is refused, and what is there goes on. -/
theorem orRefuse_cases {α β : Type} (o : Option α) (code : ErrorCode) (detail : JsString)
    (f : α → Except Failure β) :
    (orRefuse o code detail >>= f) = .error (.refused ⟨code, detail⟩) ∨
      ∃ a, o = some a ∧ (orRefuse o code detail >>= f) = f a := by
  cases o with
  | none => exact .inl rfl
  | some a => exact .inr ⟨a, rfl, rfl⟩

/-- A contract is refused, or constructed and goes on. -/
theorem contractOf_cases {β : Type} (options : Json) (f : ActionContract → Except Failure β) :
    (∃ detail, (contractOf options >>= f) = .error (.refused ⟨.contractRefused, detail⟩)) ∨
      ∃ contract, ActionContract.construct (.ofJson options) = .ok contract ∧
        (contractOf options >>= f) = f contract := by
  unfold contractOf
  cases ActionContract.construct (.ofJson options) with
  | error e => exact .inl ⟨_, rfl⟩
  | ok contract => exact .inr ⟨contract, rfl, rfl⟩

/-- A refusal is thrown, or its condition fails. -/
theorem throwIf_cases {β : Type} (c : Prop) [Decidable c] (r : Refusal)
    (f : Unit → Except Failure β) :
    (throwIf c (.refused r) >>= f) = .error (.refused r) ∨
      ¬c ∧ (throwIf c (.refused r) >>= f) = f () := by
  by_cases hc : c
  · exact .inl (by rw [throwIf, if_pos hc]; rfl)
  · exact .inr ⟨hc, by rw [throwIf, if_neg hc]; rfl⟩

/-- The command is refused for a reason of its own, or has read all it needs. -/
theorem refused_or_reads (tree : FileTree) (argv : List JsString) :
    (∃ r : Refusal, r.code ≠ .pathEscape ∧
      planOf sha256 notice diagnosticsSource cwd tree argv = .error (.refused r)) ∨
    ∃ contract distributionVersion targetPath,
      Reads cwd tree argv contract distributionVersion targetPath := by
  have hfiltered {i : ℕ} {s : JsString} (h : argv[i]?.filter isNonBlank = some s) :
      argv[i]? = some s ∧ isNonBlank s = true := Option.filter_eq_some_iff.mp h
  unfold planOf argument
  -- each check is met, or is what the command is refused for
  rcases orRefuse_cases (argv[0]?.filter isNonBlank) _ _ _ with h | ⟨contractPath, hpath, h⟩
  · exact .inl ⟨_, ErrorCode.noConfusion, h⟩
  rw [h]
  rcases orRefuse_cases (argv[1]?.filter isNonBlank) _ _ _ with h | ⟨version, hversion, h⟩
  · exact .inl ⟨_, ErrorCode.noConfusion, h⟩
  rw [h]
  rcases orRefuse_cases (argv[2]?.filter isNonBlank) _ _ _ with h | ⟨targetPath, htarget, h⟩
  · exact .inl ⟨_, ErrorCode.noConfusion, h⟩
  rw [h]
  rcases orRefuse_cases (tree.readFile cwd contractPath) _ _ _ with h | ⟨text, htext, h⟩
  · exact .inl ⟨_, ErrorCode.noConfusion, h⟩
  rw [h]
  rcases orRefuse_cases (jsonParse text) _ _ _ with h | ⟨options, hoptions, h⟩
  · exact .inl ⟨_, ErrorCode.noConfusion, h⟩
  rw [h]
  rcases orRefuse_cases (RunRecord.ordinaryObject? (some options)) _ _ _ with h | ⟨members, -, h⟩
  · exact .inl ⟨_, ErrorCode.noConfusion, h⟩
  rw [h]
  rcases contractOf_cases options _ with ⟨_, h⟩ | ⟨contract, hcontract, h⟩
  · exact .inl ⟨_, ErrorCode.noConfusion, h⟩
  rw [h]
  rcases orRefuse_cases (tree.readDirectory cwd targetPath) _ _ _ with h | ⟨existing, hread, h⟩
  · exact .inl ⟨_, ErrorCode.noConfusion, h⟩
  rw [h]
  rcases throwIf_cases (existing.length > 0) _ _ with h | ⟨hempty, -⟩
  · exact .inl ⟨_, ErrorCode.noConfusion, h⟩
  obtain rfl : existing = [] := List.length_eq_zero_iff.mp (Nat.le_zero.mp (not_lt.mp hempty))
  have hcontractPath := hfiltered hpath
  exact .inr ⟨contract, version, targetPath, ⟨contractPath, text, options, hcontractPath.1,
    hcontractPath.2, htext, hoptions, hcontract⟩, hfiltered hversion, hfiltered htarget, hread⟩

/-- Then it plans the payload of the contract. -/
theorem planOf_of_reads {tree : FileTree} {argv : List JsString} {contract : ActionContract}
    {distributionVersion targetPath : JsString}
    (h : Reads cwd tree argv contract distributionVersion targetPath) :
    planOf sha256 notice diagnosticsSource cwd tree argv = .ok (planFor sha256 notice
      diagnosticsSource contract distributionVersion (resolve cwd targetPath)) := by
  obtain ⟨⟨contractPath, text, options, hpath, hpathOk, htext, hparse, hcontract⟩,
    ⟨hversion, hversionOk⟩, ⟨htarget, htargetOk⟩, hempty⟩ := h
  obtain ⟨props, hprops⟩ := ActionContract.exists_object_of_construct hcontract
  obtain ⟨members, rfl⟩ : ∃ members, options = .obj members := by
    cases options with
    | obj members => exact ⟨members, rfl⟩
    | _ => cases hprops
  have hfiles : ∀ file ∈ sortMembers (consumerFilesOf sha256 notice diagnosticsSource contract
      distributionVersion), StaysInside file.1 := fun file hfile =>
    staysInside_of_mem ((sortMembers_perm _).mem_iff.mp hfile)
  have hcontractOf : contractOf (.obj members) = .ok contract := by rw [contractOf, hcontract]
  have hfilter {s : JsString} (h : isNonBlank s = true) :
      (some s).filter isNonBlank = some s := by rw [Option.filter_some, if_pos h]
  have hnone : ¬([] : List JsString).length > 0 := Nat.not_lt_zero 0
  unfold planOf argument
  rw [hpath, hversion, htarget, hfilter hpathOk, hfilter hversionOk, hfilter htargetOk]
  simp only [orRefuse, bind, Except.bind, htext, hparse, RunRecord.ordinaryObject?, hcontractOf,
    hempty, throwIf, if_neg hnone, Except.mapError, mapM_planFile hfiles,
    renderConsumerDiagnosticsDistribution_eq_ok sha256 notice diagnosticsSource contract
      hversionOk]
  rfl

/-! ## The calls of a plan -/

/-- The files of a payload, in the order they are written. -/
def writtenFiles (files : List (JsString × List Char)) : List (List JsString × List UInt8) :=
  files.map fun file => (namesOf file.1, utf8Encode file.2)

section Contract

variable {contract : ActionContract} {distributionVersion : JsString} {root : AbsolutePath}

/-- The calls of a plan write its files. -/
theorem calls_planFor :
    (planFor sha256 notice diagnosticsSource contract distributionVersion root).calls =
      writeCalls root (writtenFiles (sortMembers (consumerFilesOf sha256 notice diagnosticsSource
        contract distributionVersion))) := by
  simp only [Plan.calls, planFor, writeCalls, writtenFiles, List.flatMap_map]

/-- All the paths of a distribution stay inside. -/
theorem staysInside_of_mem_sorted {file : JsString × List Char}
    (h : file ∈ sortMembers (consumerFilesOf sha256 notice diagnosticsSource contract
      distributionVersion)) : StaysInside file.1 :=
  staysInside_of_mem ((sortMembers_perm _).mem_iff.mp h)

/-- The files of a payload are apart. -/
theorem apart_writtenFiles : Apart (writtenFiles (sortMembers (consumerFilesOf sha256 notice
    diagnosticsSource contract distributionVersion))) := by
  constructor
  · intro file hfile
    obtain ⟨member, hmember, rfl⟩ := List.mem_map.mp hfile
    exact (staysInside_of_mem_sorted hmember).ne_nil
  · have hperm := (sortMembers_perm (consumerFilesOf sha256 notice diagnosticsSource contract
      distributionVersion)).map fun file => (namesOf file.1, utf8Encode file.2)
    refine (hperm.pairwise_iff fun {f g} h => ⟨h.2, h.1⟩).mpr ?_
    have hmanifest : namesOf manifestPath = [manifestPath] := by decide
    have hdiagnostics : namesOf diagnosticsPath = [diagnosticsPath] := by decide
    have hmodule : namesOf (modulePathOf contract) = moduleNames contract := by
      rw [modulePathOf_eq]
      exact List.splitOn_intercalate slash
        (fun name hname => (isName_moduleNames contract name hname).2.2.2)
        (moduleNames_ne_nil contract)
    -- their first names are all different
    have hfirst : manifestPath ≠ lit "actions" ∧ manifestPath ≠ diagnosticsPath ∧
        diagnosticsPath ≠ lit "actions" := by decide
    simp [consumerFilesOf, hmanifest, hdiagnostics, hmodule, moduleNames, hfirst, hfirst.1.symm,
      hfirst.2.1.symm, hfirst.2.2.symm]

/-- Files that stay inside are written below the root. -/
theorem writtenBelow_writtenFiles {files : List (JsString × List Char)}
    (h : ∀ file ∈ files, StaysInside file.1) (fs : FileSystem) :
    writtenBelow root (writtenFiles files) fs = fs.writeFiles root files := by
  induction files generalizing fs with
  | nil => rfl
  | cons file files ih =>
    obtain ⟨hfile, hfiles⟩ := List.forall_mem_cons.mp h
    rw [FileSystem.writeFiles, List.foldl_cons, ← FileSystem.writeFiles, hfile.resolve_eq,
      ← ih hfiles]
    rfl

/-- The files after the command has written all it has planned. -/
theorem files_of_performs {tree tree' : FileTree}
    (h : Performs tree (planFor sha256 notice diagnosticsSource contract distributionVersion
      root).calls tree' true) :
    tree'.files = tree.files.writeFiles root (consumerFilesOf sha256 notice diagnosticsSource
      contract distributionVersion) := by
  rw [calls_planFor] at h
  rw [h.files_eq, writtenBelow_writtenFiles fun _ => staysInside_of_mem_sorted]
  exact (FileSystem.writeFiles_perm (sortMembers_perm _).symm (nodup_resolve_consumerFilesOf sha256
    notice diagnosticsSource contract root distributionVersion) _).symm

end Contract

/-! ## Runs -/

variable {tree tree' : FileTree} {argv : List JsString} {outcome : Outcome}

/-- A directory that lists nothing is an empty directory. -/
theorem directory_of_readDirectory {targetPath : JsString}
    (h : tree.readDirectory cwd targetPath = some []) :
    tree.entry (resolve cwd targetPath) = some .directory ∧
      tree.names (resolve cwd targetPath) = [] := by
  obtain ⟨dir, hdir, h⟩ := Option.bind_eq_some_iff.mp h
  rw [← FileTree.locate_eq_some hdir]
  split_ifs at h with hdirectory
  exact ⟨hdirectory, Option.some.inj h⟩

/-- What a plan writes is below the target, whether it comes to its end or not. -/
theorem growsBelow_of_performs {contract : ActionContract}
    {distributionVersion targetPath : JsString} {completed : Bool}
    (hreads : Reads cwd tree argv contract distributionVersion targetPath)
    (h : Performs tree (planFor sha256 notice diagnosticsSource contract distributionVersion
      (resolve cwd targetPath)).calls tree' completed) :
    GrowsBelow (resolve cwd targetPath) tree tree' := by
  obtain ⟨hdir, hempty⟩ := directory_of_readDirectory hreads.empty
  rw [calls_planFor] at h
  exact h.grows hdir hempty (isBelow_of_mem_writeCalls apart_writtenFiles.1) .refl

/-- However a run ends, interrupted or not: what was there stays as it was, what is new is below the
target, and a run that fails has written nothing, for one of the four reasons the command knows; no
payload is refused for a path of its own. -/
theorem materialize_contained
    (h : Materializes sha256 notice diagnosticsSource cwd tree argv tree' outcome) :
    (∀ p, tree.entry p ≠ none → tree'.entry p = tree.entry p) ∧
      (∀ p, tree.entry p = none → tree'.entry p ≠ none →
        ∃ targetPath, argv[2]? = some targetPath ∧ resolve cwd targetPath <+: p) ∧
      ∀ failure, outcome = .failed failure →
        tree' = tree ∧ ∃ r : Refusal, failure = .refused r ∧ r.code ≠ .pathEscape := by
  -- a run that comes to its writes has a plan, completed or not
  have hwrites {plan : Plan} {completed : Bool}
      (hplan : planOf sha256 notice diagnosticsSource cwd tree argv = .ok plan)
      (hperforms : Performs tree plan.calls tree' completed) :
      (∀ p, tree.entry p ≠ none → tree'.entry p = tree.entry p) ∧
        ∀ p, tree.entry p = none → tree'.entry p ≠ none →
          ∃ targetPath, argv[2]? = some targetPath ∧ resolve cwd targetPath <+: p := by
    rcases refused_or_reads tree argv with ⟨r, -, hrefused⟩ |
      ⟨contract, version, targetPath, hreads⟩
    · rw [hplan] at hrefused
      cases hrefused
    · obtain rfl := Except.ok.inj (hplan.symm.trans (planOf_of_reads hreads))
      have hgrows := growsBelow_of_performs hreads hperforms
      exact ⟨hgrows.kept, fun p hnone hnew =>
        ⟨targetPath, hreads.target.1, hgrows.below p hnone hnew⟩⟩
  cases h with
  | @failed failure hplan =>
    refine ⟨fun _ _ => rfl, fun _ hnone hnew => absurd hnone hnew, ?_⟩
    rintro _ ⟨⟩
    rcases refused_or_reads tree argv with ⟨r, hcode, hrefused⟩ | ⟨_, _, _, hreads⟩
    · obtain rfl := Except.error.inj (hplan.symm.trans hrefused)
      exact ⟨rfl, r, rfl, hcode⟩
    · cases hplan.symm.trans (planOf_of_reads hreads)
  | interrupted hplan hperforms =>
    obtain ⟨hkept, hbelow⟩ := hwrites hplan hperforms
    exact ⟨hkept, hbelow, fun _ => nofun⟩
  | materialized hplan hperforms =>
    obtain ⟨hkept, hbelow⟩ := hwrites hplan hperforms
    exact ⟨hkept, hbelow, fun _ => nofun⟩

/-- What has been read can be materialized. -/
theorem exists_materializes {contract : ActionContract} {distributionVersion targetPath : JsString}
    (hreads : Reads cwd tree argv contract distributionVersion targetPath) :
    ∃ tree' report, Materializes sha256 notice diagnosticsSource cwd tree argv tree'
      (.materialized report) := by
  obtain ⟨hdir, hempty⟩ := directory_of_readDirectory hreads.empty
  obtain ⟨tree', hperforms⟩ := exists_performs hdir hempty (@apart_writtenFiles sha256 notice
    diagnosticsSource contract distributionVersion)
  rw [← calls_planFor] at hperforms
  exact ⟨tree', _, .materialized (planOf_of_reads hreads) hperforms⟩

/-- A file that a contract can be constructed from, and an empty directory: the command can come to
its end, and when it does, the directory holds a payload that finds itself healthy, as long as the
contract names an outcome. -/
theorem materialize_healthy (hsha : ∀ bytes, isHex64 (sha256 bytes) = true)
    {contract : ActionContract} {distributionVersion targetPath : JsString}
    (hreads : Reads cwd tree argv contract distributionVersion targetPath) :
    (∃ tree' report, Materializes sha256 notice diagnosticsSource cwd tree argv tree'
        (.materialized report)) ∧
      ∀ tree' report, Materializes sha256 notice diagnosticsSource cwd tree argv tree'
          (.materialized report) →
        (IsHealthy (diagnose sha256 (some distributionVersion) (resolve cwd targetPath)
          tree'.files) ↔ contract.outcomes.names ≠ []) := by
  refine ⟨exists_materializes hreads, ?_⟩
  intro tree' report h
  cases h with
  | materialized hplan hperforms =>
    obtain rfl := Except.ok.inj (hplan.symm.trans (planOf_of_reads hreads))
    rw [files_of_performs hperforms, diagnose_rendered notice diagnosticsSource contract
      (resolve cwd targetPath) tree.files hsha hreads.version.2]
    -- only the last gate of the payload asks for an outcome
    by_cases houtcomes : contract.outcomes.names = []
    · rw [if_pos houtcomes]
      refine iff_of_false ?_ (not_not.mpr houtcomes)
      rintro ⟨_, hreport, -⟩
      cases hreport
    · rw [if_neg houtcomes]
      exact iff_of_true ⟨_, rfl, rfl, rfl⟩ houtcomes

end Planning

/-! ## A sample run -/

/-- A contract with one outcome. -/
def sampleContract : ActionContract := widgetContract ⟨[lit "created"], by decide, by decide⟩

/-- A contract is printed as it is. -/
theorem stable_toJson (contract : ActionContract) : Stable contract.toJson := by
  have hstrings (names : List JsString) : Stable (.arr (names.map .str)) :=
    ⟨wellFormed_strings names, readBack_strings names⟩
  refine stable_obj ActionContract.optionKeys rfl (by decide) (by decide) fun p hp => ?_
  simp only [List.mem_cons, List.not_mem_nil, or_false] at hp
  rcases hp with rfl | rfl | rfl | rfl | rfl | rfl
  · exact stable_str _
  · exact stable_str _
  · exact stable_version contract.versionOk
  · exact hstrings _
  · exact hstrings _
  · exact hstrings _

/-- Files with nothing but the root. -/
def emptyTree : FileTree where
  entries := (∅ : AList _).insert [] .directory
  root := AList.lookup_insert _
  parent p name h := by
    rw [AList.lookup_insert_ne (by simp), AList.lookup_empty] at h
    exact absurd rfl h

/-- A file with the contract, and an empty directory. -/
def sampleTree : FileTree :=
  (emptyTree.put [lit "contract.json"]
    (.file (utf8Encode sampleContract.toJson.stringify)) (List.cons_ne_nil _ _) rfl nofun).put
    [lit "out"] .directory (List.cons_ne_nil _ _) rfl nofun

/-- The arguments of the sample run. -/
def sampleArguments : List JsString := [lit "contract.json", lit "1.0.0", lit "out"]

/-- The sample arguments are read. -/
theorem reads_sample : Reads [] sampleTree sampleArguments sampleContract (lit "1.0.0")
    (lit "out") := by
  have hlocate : sampleTree.locate [] (lit "contract.json") = some [lit "contract.json"] := rfl
  have hfile : sampleTree.files [lit "contract.json"] =
      some (utf8Encode sampleContract.toJson.stringify) := rfl
  have hread : sampleTree.readFile [] (lit "contract.json") =
      some sampleContract.toJson.stringify := by
    rw [FileTree.readFile, hlocate, Option.bind_some, FileSystem.readText, hfile, Option.map_some,
      utf8Decode_utf8Encode]
  have hparse : jsonParse sampleContract.toJson.stringify = some sampleContract.toJson := by
    rw [jsonParse_stringify (stable_toJson _).1, (stable_toJson _).2]
  exact ⟨⟨_, _, _, rfl, by decide, hread, hparse, ActionContract.construct_toJson _⟩,
    ⟨rfl, by decide⟩, ⟨rfl, by decide⟩, rfl⟩

/-- A run that comes to its end and leaves the contract where it was. -/
theorem materialize_contained_sample :
    ∃ tree' report, Materializes sha256Hex sampleNotice sampleRunner [] sampleTree sampleArguments
        tree' (.materialized report) ∧
      tree'.entry [lit "contract.json"] = sampleTree.entry [lit "contract.json"] := by
  obtain ⟨tree', report, h⟩ := exists_materializes reads_sample
  exact ⟨tree', report, h, (materialize_contained h).1 _ nofun⟩

/-- Its payload finds itself healthy. -/
theorem materialize_healthy_sample :
    ∃ tree' report, Materializes sha256Hex sampleNotice sampleRunner [] sampleTree sampleArguments
        tree' (.materialized report) ∧
      IsHealthy (diagnose sha256Hex (some (lit "1.0.0")) [lit "out"] tree'.files) := by
  obtain ⟨⟨tree', report, h⟩, hhealthy⟩ := materialize_healthy isHex64_sha256Hex reads_sample
  exact ⟨tree', report, h, (hhealthy tree' report h).mpr (List.cons_ne_nil _ _)⟩

end MetaframerKernel.MaterializePayload
