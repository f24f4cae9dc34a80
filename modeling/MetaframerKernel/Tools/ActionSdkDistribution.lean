import MetaframerKernel.Node.Files
import MetaframerKernel.Tools.ActionSdk
import MetaframerKernel.Tools.ExternalConsumerRunRecord

/-!
# Action SDK distributions

The versioned distribution of an action SDK, and the consumer distribution that wraps it with a
diagnostics runner: maps of paths to texts, bound together by digests in a manifest.

## Main definitions

* `renderVersionedActionSdkDistribution`, `renderConsumerDiagnosticsDistribution`.

## Main results

* `renderConsumerDiagnosticsDistribution_eq_ok`: what is rendered for a non-blank version.
-/

namespace MetaframerKernel.ActionSdk

open Js

/-- Why a renderer throws. -/
inductive RenderError where
  | native (e : NativeError)
  | syntaxError

/-- An object literal, in which a member may be `undefined`: `JSON.stringify` leaves it out. -/
def objectLiteral (members : List (JsString × Option Json)) : Json :=
  .obj (members.filterMap fun p => p.2.map fun v => (p.1, v))

/-- `actions/${contract.name}/v${contract.version}.mjs` -/
def modulePathOf (contract : ActionContract) : JsString :=
  lit "actions/" ++ contract.name ++ lit "/v" ++ (JsNumber.ofInt contract.version).toText ++
    lit ".mjs"

/-- `${contract.name}@${contract.version}` -/
def coordinateOf (contract : ActionContract) : JsString :=
  contract.name ++ lit "@" ++ (JsNumber.ofInt contract.version).toText

/-- `{ kind: contract.kind, name: contract.name, version: contract.version }` -/
def actionOf (contract : ActionContract) : Json :=
  .obj [(lit "kind", .str contract.kind.name), (lit "name", .str contract.name),
    (lit "version", .num (.ofInt contract.version))]

/-- A distribution. -/
structure Distribution where
  coordinate : JsString
  distributionVersion : JsString
  manifestPath : JsString
  modulePath : JsString
  /-- The texts of the files, by path. -/
  files : List (JsString × List Char)

/-- A distribution with a diagnostics runner. -/
structure ConsumerDistribution extends Distribution where
  diagnosticsPath : JsString

/-- `DIAGNOSTICS_PATH` -/
def diagnosticsPath : JsString := lit "diagnose.mjs"

/-- `manifest.json` -/
def manifestPath : JsString := lit "manifest.json"

section Render

variable (sha256 : ByteArray → JsString) (notice : Notice)

/-- The SHA-256 coordinate of the JSON text of a value. -/
def digest (value : Json) : JsString :=
  lit "sha256:" ++ sha256 (utf8Bytes (ofText value.stringify))

/-- The `digestInput` of the versioned distribution. -/
def integrityInput (contract : ActionContract) (distributionVersion : JsString) : Json :=
  .obj [(lit "schemaVersion", .num (.ofInt 1)), (lit "distributionVersion", .str distributionVersion),
    (lit "coordinate", .str (coordinateOf contract)), (lit "action", actionOf contract),
    (lit "modulePath", .str (modulePathOf contract)),
    (lit "moduleSource", .str (ofText (renderActionSdk notice contract)))]

/-- The manifest of the versioned distribution. -/
def manifestOf (contract : ActionContract) (distributionVersion : JsString) :
    List (JsString × Json) :=
  [(lit "schemaVersion", .num (.ofInt 1)), (lit "format", .str (lit "esm")),
    (lit "distributionVersion", .str distributionVersion),
    (lit "coordinate", .str (coordinateOf contract)), (lit "action", actionOf contract),
    (lit "modulePath", .str (modulePathOf contract)),
    (lit "integrity", .str (digest sha256 (integrityInput notice contract distributionVersion)))]

/-- `renderVersionedActionSdkDistribution` -/
def renderVersionedActionSdkDistribution (contract : ActionContract)
    (distributionVersion : JsValue) :
    Except RenderError Distribution :=
  match distributionVersion with
  | .string s =>
      if isNonBlank s then
        .ok {
          coordinate := coordinateOf contract
          distributionVersion := s
          manifestPath
          modulePath := modulePathOf contract
          files := collectMembers [
            (manifestPath,
              (Json.obj (manifestOf sha256 notice contract s)).stringify ++ ['\n']),
            (modulePathOf contract, renderActionSdk notice contract)] }
      else .error (.native versionRefusal)
  | _ => .error (.native versionRefusal)
where
  versionRefusal : NativeError := .typeError (lit
    "renderVersionedActionSdkDistribution requires a non-empty distributionVersion string")

variable (diagnosticsSource : List Char)

/-- The `digestInput` of the consumer distribution. -/
def diagnosticsInput (distributionVersion : JsString) (coordinate integrity : Option Json) : Json :=
  objectLiteral [(lit "schemaVersion", some (.num (.ofInt 1))),
    (lit "distributionVersion", some (.str distributionVersion)), (lit "coordinate", coordinate),
    (lit "integrity", integrity), (lit "diagnosticsPath", some (.str diagnosticsPath)),
    (lit "diagnosticsSource", some (.str (ofText diagnosticsSource)))]

/-- `renderConsumerDiagnosticsDistribution` -/
def renderConsumerDiagnosticsDistribution (contract : ActionContract)
    (distributionVersion : JsValue) : Except RenderError ConsumerDistribution := do
  let legacy ← renderVersionedActionSdkDistribution sha256 notice contract distributionVersion
  match (legacy.files.lookup legacy.manifestPath).bind jsonParse with
  | none => .error .syntaxError
  | some legacyManifest =>
      -- the digest binds the runner to the coordinate and to the integrity of the module
      let diagnostics := digest sha256 (diagnosticsInput diagnosticsSource
        legacy.distributionVersion (legacyManifest.members.lookup (lit "coordinate"))
        (legacyManifest.members.lookup (lit "integrity")))
      let manifest := putMember (lit "diagnostics") (.str diagnostics)
        (putMember (lit "diagnosticsPath") (.str diagnosticsPath) legacyManifest.members)
      return {
        legacy with
        files := putMember diagnosticsPath diagnosticsSource
          (putMember legacy.manifestPath ((Json.obj manifest).stringify ++ ['\n']) legacy.files)
        diagnosticsPath }

end Render

/-! ## Rendered files -/

/-- Printing a value and reading it back leaves it as it is. -/
def Stable (v : Json) : Prop := v.wellFormed = true ∧ v.readBack = v

/-- A string is stable. -/
theorem stable_str (s : JsString) : Stable (.str s) := ⟨rfl, readBack_str s⟩

/-- A version is stable. -/
theorem stable_version {z : ℤ} (h : IsActionVersion z) : Stable (.num (.ofInt z)) :=
  ⟨wellFormed_version h, readBack_version h⟩

/-- Distinct keys that are no array indices keep their order. -/
theorem stable_obj {m : List (JsString × Json)} (keys : List JsString)
    (hkeys : m.map Prod.fst = keys) (hnodup : keys.Nodup)
    (hnames : ∀ k ∈ keys, arrayIndex? k = none) (h : ∀ p ∈ m, Stable p.2) : Stable (.obj m) := by
  subst hkeys
  have hself : ∀ p ∈ m, Prod.map id Json.readBack p = id p := fun p hp =>
    Prod.ext rfl (h p hp).2
  refine ⟨(Json.wellFormed_obj m).mpr ⟨hnodup, fun p hp => (h p hp).1⟩, ?_⟩
  rw [Json.readBack, Json.rebuild_obj Json.rearranges_ownOrder, ← Json.readBack,
    ownOrder_eq_self fun p hp => hnames p.1 (List.mem_map_of_mem hp), List.map_congr_left hself,
    List.map_id]

/-- A stable value is read back from its line. -/
theorem jsonParse_of_stable {v : Json} (h : Stable v) :
    jsonParse (v.stringify ++ ['\n']) = some v := by
  rw [jsonParse_stringify_newline h.1, h.2]

section Rendered

variable (sha256 : ByteArray → JsString) (notice : Notice) (diagnosticsSource : List Char)
  (contract : ActionContract)

/-- The digest that binds the runner to the payload. -/
def diagnosticsOf (distributionVersion : JsString) : JsString :=
  digest sha256 (diagnosticsInput diagnosticsSource distributionVersion
    (some (.str (coordinateOf contract)))
    (some (.str (digest sha256 (integrityInput notice contract distributionVersion)))))

/-- The manifest of the consumer distribution. -/
def consumerManifestOf (distributionVersion : JsString) : List (JsString × Json) :=
  manifestOf sha256 notice contract distributionVersion ++
    [(lit "diagnosticsPath", .str diagnosticsPath),
      (lit "diagnostics", .str (diagnosticsOf sha256 notice diagnosticsSource contract
        distributionVersion))]

/-- The action of a contract is stable. -/
theorem stable_actionOf : Stable (actionOf contract) := by
  refine stable_obj [lit "kind", lit "name", lit "version"] rfl (by decide) (by decide) ?_
  intro p hp
  simp only [List.mem_cons, List.not_mem_nil, or_false] at hp
  rcases hp with rfl | rfl | rfl
  · exact stable_str _
  · exact stable_str _
  · exact stable_version contract.versionOk

/-- One is stable. -/
theorem stable_one : Stable (.num (.ofInt 1)) := stable_version (by decide)

/-- The members of the manifest are stable. -/
theorem stable_of_mem_manifestOf {distributionVersion : JsString} {p : JsString × Json}
    (h : p ∈ manifestOf sha256 notice contract distributionVersion) : Stable p.2 := by
  simp only [manifestOf, List.mem_cons, List.not_mem_nil, or_false] at h
  rcases h with rfl | rfl | rfl | rfl | rfl | rfl | rfl
  · exact stable_one
  · exact stable_str _
  · exact stable_str _
  · exact stable_str _
  · exact stable_actionOf contract
  · exact stable_str _
  · exact stable_str _

/-- The keys of the versioned manifest. -/
def manifestKeys : List JsString :=
  [lit "schemaVersion", lit "format", lit "distributionVersion", lit "coordinate", lit "action",
    lit "modulePath", lit "integrity"]

/-- The manifest is read back as it is. -/
theorem stable_manifestOf (distributionVersion : JsString) :
    Stable (.obj (manifestOf sha256 notice contract distributionVersion)) :=
  stable_obj manifestKeys rfl (by decide) (by decide) fun _ =>
    stable_of_mem_manifestOf sha256 notice contract

/-- The consumer's manifest is stable. -/
theorem stable_consumerManifestOf (distributionVersion : JsString) :
    Stable (.obj (consumerManifestOf sha256 notice diagnosticsSource contract
      distributionVersion)) := by
  refine stable_obj (manifestKeys ++ [lit "diagnosticsPath", lit "diagnostics"]) rfl
    (by decide) (by decide) fun p hp => ?_
  rcases List.mem_append.mp hp with hp | hp
  · exact stable_of_mem_manifestOf sha256 notice contract hp
  · simp only [List.mem_cons, List.not_mem_nil, or_false] at hp
    rcases hp with rfl | rfl
    · exact stable_str _
    · exact stable_str _

/-- The files of the consumer distribution. -/
def consumerFilesOf (distributionVersion : JsString) : List (JsString × List Char) :=
  [(manifestPath, (Json.obj (consumerManifestOf sha256 notice diagnosticsSource contract
      distributionVersion)).stringify ++ ['\n']),
    (modulePathOf contract, renderActionSdk notice contract),
    (diagnosticsPath, diagnosticsSource)]

/-- The module is written at a path of its own. -/
theorem modulePathOf_notMem : modulePathOf contract ∉ [manifestPath, diagnosticsPath] := by
  intro h
  have hhead : (modulePathOf contract).head? = some 0x61 := rfl
  simp only [List.mem_cons, List.not_mem_nil, or_false] at h
  rcases h with h | h
  · rw [h] at hhead
    exact absurd hhead (by decide)
  · rw [h] at hhead
    exact absurd hhead (by decide)

/-- The runner's members follow those of the versioned manifest. -/
theorem putMember_manifestOf (distributionVersion diagnostics : JsString) :
    putMember (lit "diagnostics") (.str diagnostics)
        (putMember (lit "diagnosticsPath") (.str diagnosticsPath)
          (manifestOf sha256 notice contract distributionVersion)) =
      manifestOf sha256 notice contract distributionVersion ++
        [(lit "diagnosticsPath", .str diagnosticsPath), (lit "diagnostics", .str diagnostics)] := by
  have hkeys : (manifestOf sha256 notice contract distributionVersion).map Prod.fst =
      manifestKeys := rfl
  have hpath : lit "diagnosticsPath" ∉
      (manifestOf sha256 notice contract distributionVersion).map Prod.fst := by
    rw [hkeys]
    decide
  rw [putMember_of_fresh hpath, putMember_of_fresh, List.append_assoc]
  · rfl
  · rw [List.map_append, hkeys]
    decide

/-- The manifest is replaced where it stands, and the runner follows the module. -/
theorem putMember_files (old new moduleText runner : List Char) :
    putMember diagnosticsPath runner (putMember manifestPath new
        (collectMembers [(manifestPath, old), (modulePathOf contract, moduleText)])) =
      [(manifestPath, new), (modulePathOf contract, moduleText), (diagnosticsPath, runner)] := by
  have hpath := modulePathOf_notMem contract
  simp only [List.mem_cons, List.not_mem_nil, or_false, not_or] at hpath
  obtain ⟨hmanifest, hrunner⟩ := hpath
  have hreplace :
      putMember manifestPath new [(manifestPath, old), (modulePathOf contract, moduleText)] =
        [(manifestPath, new), (modulePathOf contract, moduleText)] := by
    simp [putMember, hmanifest]
  rw [collectMembers_of_nodup (by simpa using Ne.symm hmanifest), hreplace, putMember_of_fresh]
  · rfl
  · intro hmem
    simp only [List.map_cons, List.map_nil, List.mem_cons, List.not_mem_nil, or_false] at hmem
    rcases hmem with hmem | hmem
    · exact absurd hmem (by decide)
    · exact hrunner hmem.symm

/-- What is rendered for a non-blank version. -/
theorem renderConsumerDiagnosticsDistribution_eq_ok {distributionVersion : JsString}
    (h : isNonBlank distributionVersion = true) :
    renderConsumerDiagnosticsDistribution sha256 notice diagnosticsSource contract
        (.string distributionVersion) = .ok {
      coordinate := coordinateOf contract
      distributionVersion
      manifestPath
      modulePath := modulePathOf contract
      files := consumerFilesOf sha256 notice diagnosticsSource contract distributionVersion
      diagnosticsPath } := by
  have hlegacy : renderVersionedActionSdkDistribution sha256 notice contract
      (.string distributionVersion) = .ok _ := if_pos h
  -- the manifest is read back from the files of the older distribution
  have hfile : ∀ old moduleText : List Char, (collectMembers [(manifestPath, old),
      (modulePathOf contract, moduleText)]).lookup manifestPath = some old := by
    intro old moduleText
    have hpath := modulePathOf_notMem contract
    simp only [List.mem_cons, List.not_mem_nil, or_false, not_or] at hpath
    rw [collectMembers_of_nodup (by simpa using Ne.symm hpath.1), List.lookup_cons,
      beq_self_eq_true]
  have hcoordinate : (manifestOf sha256 notice contract distributionVersion).lookup
      (lit "coordinate") = some (.str (coordinateOf contract)) := rfl
  have hintegrity : (manifestOf sha256 notice contract distributionVersion).lookup
      (lit "integrity") =
        some (.str (digest sha256 (integrityInput notice contract distributionVersion))) := rfl
  rw [renderConsumerDiagnosticsDistribution, hlegacy]
  simp only [bind, Except.bind, hfile, Option.bind_some,
    jsonParse_of_stable (stable_manifestOf sha256 notice contract distributionVersion),
    Json.members, hcoordinate, hintegrity, putMember_manifestOf, putMember_files]
  rfl

end Rendered
end MetaframerKernel.ActionSdk
