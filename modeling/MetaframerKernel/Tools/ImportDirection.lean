import MetaframerKernel.Node.PosixPaths
import MetaframerKernel.Tools.ArchitectureFitness
import MetaframerKernel.Tools.OnionLayers
import Mathlib.Logic.Relation

/-!
# The direction of imports

`resolveLocalImportTarget` and `evaluateArchitectureFitness` of the import-direction gate: every
file of the source tree is in the ring of a layer, and what it imports is a file of the tree in the
same ring or further in.

## Main definitions

* `resolveLocalImportTarget`: the file a specifier leads to;
* `evaluateArchitectureFitness`: the findings, none when the tree is green;
* `Imports`: a file of the tree imports another.

## Main results

* `resolveLocalImportTarget_eq`: a specifier is resolved when it never leaves the source root on
  its way, and then to where it leads;
* `evaluate_perm`: the findings do not depend on the order in which the files are read;
* `onion_of_green`: in a green tree no chain of imports goes outwards, and none leaves a ring and
  comes back;
* `merge_green`: a tree without the added ring is as green before a supplement as after it.
-/

namespace MetaframerKernel.ArchitectureFitness

open Js Node

/-! ## The target of an import -/

/-- `resolveLocalImportTarget` -/
def resolveLocalImportTarget (sourceRelPath specifier : JsString) : Except JsString JsString :=
  let joined := normalize (join (dirname sourceRelPath) specifier)
  if joined = up ∨ (up ++ [Node.slash]).isPrefixOf joined then
    .error (lit "escapes-source-root:" ++ specifier)
  else .ok joined

/-- A path escapes when `..` is its first name. -/
theorem escapes_iff {path : JsString} :
    (path = up ∨ (up ++ [Node.slash]).isPrefixOf path = true) ↔
      path.takeWhile (· ≠ Node.slash) = up := by
  rw [List.isPrefixOf_iff_prefix]
  have hkeep : ∀ u ∈ up, decide (u ≠ Node.slash) = true := fun u hu =>
    decide_eq_true fun heq => (show Node.slash ∉ up by decide) (heq ▸ hu)
  constructor
  · rintro (rfl | ⟨rest, rfl⟩)
    · decide
    · rw [List.append_assoc, List.takeWhile_append_of_pos hkeep, List.singleton_append,
        List.takeWhile_cons, if_neg (by simp), List.append_nil]
  · intro h
    obtain ⟨rest, rfl⟩ : up <+: path := h ▸ List.takeWhile_prefix _
    rw [List.takeWhile_append_of_pos hkeep] at h
    have hrest := List.append_cancel_left (h.trans (List.append_nil up).symm)
    cases rest with
    | nil => exact .inl (List.append_nil up)
    | cons u rest =>
      have hu : u = Node.slash := by
        by_contra hne
        rw [List.takeWhile_cons, if_pos (decide_eq_true hne)] at hrest
        cases hrest
      exact .inr ⟨rest, by rw [hu, List.append_assoc, List.singleton_append]⟩

/-- A specifier of a file in a directory is resolved to where it leads, as long as it does not leave
the source root on its way there. -/
theorem resolveLocalImportTarget_eq {dir : List JsString} (hdir : Descends dir) {base : JsString}
    (hbase : IsName base) (specifier : JsString) :
    resolveLocalImportTarget (pathOf (dir ++ [base])) specifier =
      match walk dir (specifier.splitOn Node.slash) with
      | some names => .ok (render names (specifier.getLast? = some Node.slash))
      | none => .error (lit "escapes-source-root:" ++ specifier) := by
  rw [resolveLocalImportTarget, dirname_pathOf hdir hbase]
  simp only [escapes_iff]
  have hup := takeWhile_join_eq_up_iff hdir (p := specifier)
  cases hwalk : walk dir (specifier.splitOn Node.slash) with
  | none => rw [if_pos (takeWhile_normalize (hup.mpr hwalk))]
  | some names =>
    obtain ⟨hjoin, hnames⟩ := join_of_walk hdir hwalk
    rw [hwalk] at hup
    rw [hjoin] at hup ⊢
    rw [normalize_render hnames, if_neg fun h => Option.some_ne_none names (hup.mp h)]

theorem resolveLocalImportTarget_eq_sample :
    resolveLocalImportTarget (lit "adapters/db/store.mjs") (lit "../../domain/./entity.mjs") =
        .ok (lit "domain/entity.mjs") ∧
      resolveLocalImportTarget (lit "adapters/db/store.mjs") (lit "../../../src/domain") =
        .error (lit "escapes-source-root:../../../src/domain") := by
  have hdir : Descends [lit "adapters", lit "db"] := by
    unfold Descends IsName
    decide
  have hbase : IsName (lit "store.mjs") := by
    unfold IsName
    decide
  exact ⟨(resolveLocalImportTarget_eq hdir hbase _).trans (by decide),
    (resolveLocalImportTarget_eq hdir hbase _).trans (by decide)⟩

/-! ## The evaluator -/

/-- A file of the tree, `none` for the text of one that cannot be read. -/
structure SourceFile where
  relPath : JsString
  text : Option JsString

section Evaluator

variable (toLowerCase : JsString → JsString)

/-- `ringNameOf` -/
def ringNameOf (relPath : JsString) : JsString :=
  toLowerCase ((relPath.splitOn Node.slash).headD [])

/-- The finding about one specifier of a file, if there is one. -/
def importFinding (layerOrder : LayerOrder) (knownFiles : List JsString) (relPath : JsString)
    (sourceOrder : ℤ) (specifier : JsString) : Option JsString :=
  match resolveLocalImportTarget relPath specifier with
  | .error reason => some (reason ++ lit ":" ++ relPath)
  | .ok target =>
      -- a file that is not scanned has no ring
      if target ∉ knownFiles then
        some (lit "missing-import-target:" ++ relPath ++ lit "->" ++ target)
      else
        match layerOrder.lookup (ringNameOf toLowerCase target) with
        | none => some (lit "unknown-ring:" ++ target)
        | some targetOrder =>
            -- rings are counted from the inside: an import may not go outwards
            if targetOrder > sourceOrder then
              some (lit "outward-import:" ++ relPath ++ lit "(ring " ++
                (JsNumber.ofInt sourceOrder).toText ++ lit ")->" ++ target ++ lit "(ring " ++
                (JsNumber.ofInt targetOrder).toText ++ lit ")")
            else none

/-- The findings about one file. -/
def fileFindings (layerOrder : LayerOrder) (knownFiles : List JsString) (file : SourceFile) :
    List JsString :=
  match file.text with
  | none => [lit "unreadable-source:" ++ file.relPath]
  | some text =>
      match layerOrder.lookup (ringNameOf toLowerCase file.relPath) with
      | none => [lit "unknown-ring:" ++ file.relPath]
      | some sourceOrder =>
          match extractLocalImportSpecifiers text with
          -- a dynamic import that names no file is a finding, and hides the others of the file
          | .error reason => [reason ++ lit ":" ++ file.relPath]
          | .ok specifiers => specifiers.filterMap
              (importFinding toLowerCase layerOrder knownFiles file.relPath sourceOrder)

/-- What `evaluateArchitectureFitness` answers. -/
structure Fitness where
  ok : Bool
  findings : List JsString
deriving DecidableEq

/-- `evaluateArchitectureFitness` -/
def evaluateArchitectureFitness (layers : Option (List (Option OnionLayer)))
    (files : List SourceFile) : Fitness :=
  match parseCanonicalLayers toLowerCase layers with
  | .error reason => ⟨false, [reason]⟩
  | .ok layerOrder =>
      let knownFiles := files.map SourceFile.relPath
      ⟨true, (files.flatMap (fileFindings toLowerCase layerOrder knownFiles)).insertionSort
        (· ≤ ·)⟩

/-- A tree without findings. -/
def IsGreen (layers : Option (List (Option OnionLayer))) (files : List SourceFile) : Prop :=
  evaluateArchitectureFitness toLowerCase layers files = ⟨true, []⟩

end Evaluator

/-- A file of the tree imports another, by one of the specifiers that are extracted from it. -/
def Imports (files : List SourceFile) (source target : JsString) : Prop :=
  ∃ file ∈ files, file.relPath = source ∧ ∃ text specifiers, file.text = some text ∧
    extractLocalImportSpecifiers text = .ok specifiers ∧
    ∃ specifier ∈ specifiers, resolveLocalImportTarget source specifier = .ok target

/-! ## Green trees -/

section Green

variable {toLowerCase : JsString → JsString} {layerOrder : LayerOrder} {knownFiles : List JsString}
  {layers : Option (List (Option OnionLayer))} {files files' : List SourceFile}

/-- The specifier leads to a file of the tree, in a ring that is not further out. -/
def LeadsInward (toLowerCase : JsString → JsString) (layerOrder : LayerOrder)
    (knownFiles : List JsString) (relPath : JsString) (sourceOrder : ℤ) (specifier : JsString) :
    Prop :=
  ∃ target targetOrder, resolveLocalImportTarget relPath specifier = .ok target ∧
    target ∈ knownFiles ∧ layerOrder.lookup (ringNameOf toLowerCase target) = some targetOrder ∧
    targetOrder ≤ sourceOrder

/-- Nothing is found of an import that leads inward. -/
theorem importFinding_eq_none_iff {relPath specifier : JsString} {sourceOrder : ℤ} :
    importFinding toLowerCase layerOrder knownFiles relPath sourceOrder specifier = none ↔
      LeadsInward toLowerCase layerOrder knownFiles relPath sourceOrder specifier := by
  unfold importFinding LeadsInward
  cases hresolve : resolveLocalImportTarget relPath specifier with
  | error reason =>
    refine iff_of_false (Option.some_ne_none _) ?_
    rintro ⟨_, _, ⟨⟩, -⟩
  | ok target =>
    constructor
    · intro h
      dsimp only at h
      split_ifs at h with hknown
      cases hring : layerOrder.lookup (ringNameOf toLowerCase target) with
      | none => simp [hring] at h
      | some targetOrder =>
        rw [hring] at h
        dsimp only at h
        split_ifs at h with hout
        exact ⟨target, targetOrder, rfl, hknown, hring, not_lt.mp hout⟩
    · rintro ⟨_, targetOrder, ⟨⟩, hknown, hring, hle⟩
      dsimp only
      rw [if_neg (not_not_intro hknown), hring]
      exact if_neg (not_lt.mpr hle)

/-- The file can be read, is in the ring of a layer, and all it imports leads inward. -/
def FacesInward (toLowerCase : JsString → JsString) (layerOrder : LayerOrder)
    (knownFiles : List JsString) (file : SourceFile) : Prop :=
  ∃ text sourceOrder specifiers, file.text = some text ∧
    layerOrder.lookup (ringNameOf toLowerCase file.relPath) = some sourceOrder ∧
    extractLocalImportSpecifiers text = .ok specifiers ∧
    ∀ specifier ∈ specifiers,
      LeadsInward toLowerCase layerOrder knownFiles file.relPath sourceOrder specifier

/-- Nothing is found of a file that faces inward. -/
theorem fileFindings_eq_nil_iff {file : SourceFile} :
    fileFindings toLowerCase layerOrder knownFiles file = [] ↔
      FacesInward toLowerCase layerOrder knownFiles file := by
  unfold fileFindings FacesInward
  cases htext : file.text with
  | none =>
    refine iff_of_false (List.cons_ne_nil _ _) ?_
    rintro ⟨_, _, _, ⟨⟩, -⟩
  | some text =>
    cases hring : layerOrder.lookup (ringNameOf toLowerCase file.relPath) with
    | none =>
      refine iff_of_false (List.cons_ne_nil _ _) ?_
      rintro ⟨_, _, _, -, ⟨⟩, -⟩
    | some sourceOrder =>
      cases hextracted : extractLocalImportSpecifiers text with
      | error reason =>
        refine iff_of_false (by simp [hextracted]) ?_
        rintro ⟨_, _, _, ⟨⟩, -, hok, -⟩
        cases hextracted.symm.trans hok
      | ok specifiers =>
        simp only [hextracted, List.filterMap_eq_nil_iff, importFinding_eq_none_iff]
        constructor
        · intro h
          exact ⟨text, sourceOrder, specifiers, rfl, rfl, hextracted, h⟩
        · rintro ⟨_, _, _, ⟨⟩, ⟨⟩, hok, h⟩
          obtain rfl := Except.ok.inj (hextracted.symm.trans hok)
          exact h

/-- A tree is green when its contract is accepted and all its files face inward. -/
theorem isGreen_iff :
    IsGreen toLowerCase layers files ↔
      ∃ layerOrder, parseCanonicalLayers toLowerCase layers = .ok layerOrder ∧
        ∀ file ∈ files,
          FacesInward toLowerCase layerOrder (files.map SourceFile.relPath) file := by
  unfold IsGreen evaluateArchitectureFitness
  cases hparse : parseCanonicalLayers toLowerCase layers with
  | error reason =>
    refine iff_of_false (by simp) ?_
    rintro ⟨_, ⟨⟩, -⟩
  | ok layerOrder =>
    have hsorted (findings : List JsString) :
        findings.insertionSort (· ≤ ·) = [] ↔ findings = [] := by
      rw [← List.length_eq_zero_iff, List.length_insertionSort, List.length_eq_zero_iff]
    simp only [Fitness.mk.injEq, true_and, hsorted, List.flatMap_eq_nil_iff,
      fileFindings_eq_nil_iff, Except.ok.injEq, exists_eq_left']

/-- The order in which the files are read makes no difference. -/
theorem evaluate_perm (h : files.Perm files') :
    evaluateArchitectureFitness toLowerCase layers files =
      evaluateArchitectureFitness toLowerCase layers files' := by
  unfold evaluateArchitectureFitness
  cases parseCanonicalLayers toLowerCase layers with
  | error reason => rfl
  | ok layerOrder =>
    have hknown (file : SourceFile) :
        fileFindings toLowerCase layerOrder (files.map SourceFile.relPath) file =
          fileFindings toLowerCase layerOrder (files'.map SourceFile.relPath) file := by
      unfold fileFindings importFinding
      simp only [(h.map SourceFile.relPath).mem_iff]
    dsimp only
    rw [funext hknown]
    have hperm := (List.perm_insertionSort (· ≤ ·) _).trans ((h.flatMap_right (fileFindings
      toLowerCase layerOrder (files'.map SourceFile.relPath))).trans
      (List.perm_insertionSort (· ≤ ·) _).symm)
    exact congrArg (Fitness.mk true) (hperm.eq_of_pairwise'
      (List.pairwise_insertionSort _ _) (List.pairwise_insertionSort _ _))

/-- What a file of a green tree imports is a file of the tree, not further out. -/
theorem inward_of_imports
    (hfaces : ∀ file ∈ files,
      FacesInward toLowerCase layerOrder (files.map SourceFile.relPath) file)
    {source target : JsString} (h : Imports files source target) {sourceOrder : ℤ}
    (hsource : layerOrder.lookup (ringNameOf toLowerCase source) = some sourceOrder) :
    target ∈ files.map SourceFile.relPath ∧
      ∃ targetOrder, layerOrder.lookup (ringNameOf toLowerCase target) = some targetOrder ∧
        targetOrder ≤ sourceOrder := by
  obtain ⟨file, hfile, rfl, text, specifiers, htext, hextracted, specifier, hspecifier, hresolve⟩ :=
    h
  obtain ⟨text', sourceOrder', specifiers', htext', hring, hextracted', hinward⟩ :=
    hfaces file hfile
  obtain rfl := Option.some.inj (htext.symm.trans htext')
  obtain rfl := Except.ok.inj (hextracted.symm.trans hextracted')
  obtain rfl := Option.some.inj (hsource.symm.trans hring)
  obtain ⟨target', targetOrder, hresolve', hknown, htarget, hle⟩ := hinward specifier hspecifier
  obtain rfl := Except.ok.inj (hresolve.symm.trans hresolve')
  exact ⟨hknown, targetOrder, htarget, hle⟩

/-- Nor is what a chain of imports leads to. -/
theorem inward_of_chain
    (hfaces : ∀ file ∈ files,
      FacesInward toLowerCase layerOrder (files.map SourceFile.relPath) file)
    {source target : JsString} (h : Relation.ReflTransGen (Imports files) source target)
    (hfile : source ∈ files.map SourceFile.relPath) {sourceOrder : ℤ}
    (hsource : layerOrder.lookup (ringNameOf toLowerCase source) = some sourceOrder) :
    target ∈ files.map SourceFile.relPath ∧
      ∃ targetOrder, layerOrder.lookup (ringNameOf toLowerCase target) = some targetOrder ∧
        targetOrder ≤ sourceOrder := by
  induction h with
  | refl => exact ⟨hfile, sourceOrder, hsource, le_rfl⟩
  | tail _ himports ih =>
    obtain ⟨-, middleOrder, hmiddle, hle⟩ := ih
    obtain ⟨htarget, targetOrder, hring, hle'⟩ := inward_of_imports hfaces himports hmiddle
    exact ⟨htarget, targetOrder, hring, hle'.trans hle⟩

/-- Two layers of an accepted contract that have one order are one layer. -/
theorem key_eq_of_order_eq (hparse : parseCanonicalLayers toLowerCase layers = .ok layerOrder)
    {key key' : JsString} {order : ℤ} (h : layerOrder.lookup key = some order)
    (h' : layerOrder.lookup key' = some order) : key = key' := by
  obtain ⟨entries, -, -, rfl, hnodup, hcontiguous⟩ := parse_eq_ok_iff.mp hparse
  obtain ⟨layer, hlayer, rfl, rfl⟩ := (lookup_entry_iff hnodup).mp h
  obtain ⟨layer', hlayer', rfl, horder⟩ := (lookup_entry_iff hnodup).mp h'
  have horders := nodup_of_isContiguous hcontiguous
  rw [List.inj_on_of_nodup_map horders hlayer' hlayer horder]

/-- In a green tree no chain of imports goes outwards, and none leaves a ring and comes back. -/
theorem onion_of_green (h : IsGreen toLowerCase layers files) :
    ∃ layerOrder, parseCanonicalLayers toLowerCase layers = .ok layerOrder ∧
      ∀ source ∈ files.map SourceFile.relPath, ∀ target,
        Relation.ReflTransGen (Imports files) source target →
          target ∈ files.map SourceFile.relPath ∧
          ∃ sourceOrder targetOrder,
            layerOrder.lookup (ringNameOf toLowerCase source) = some sourceOrder ∧
            layerOrder.lookup (ringNameOf toLowerCase target) = some targetOrder ∧
            targetOrder ≤ sourceOrder ∧
            (Relation.ReflTransGen (Imports files) target source →
              ringNameOf toLowerCase target = ringNameOf toLowerCase source) := by
  obtain ⟨layerOrder, hparse, hfaces⟩ := isGreen_iff.mp h
  refine ⟨layerOrder, hparse, fun source hsource target hchain => ?_⟩
  obtain ⟨file, hfile, rfl⟩ := List.mem_map.mp hsource
  obtain ⟨_, sourceOrder, _, -, hring, -⟩ := hfaces file hfile
  obtain ⟨htarget, targetOrder, hring', hle⟩ := inward_of_chain hfaces hchain hsource hring
  refine ⟨htarget, sourceOrder, targetOrder, hring, hring', hle, fun hback => ?_⟩
  -- the way back goes no further out either, so the two orders are one
  obtain ⟨-, order, hring'', hle'⟩ := inward_of_chain hfaces hback htarget hring'
  obtain rfl := Option.some.inj (hring.symm.trans hring'')
  obtain rfl := le_antisymm hle hle'
  exact key_eq_of_order_eq hparse hring' hring

/-- `toLowerCase` on ASCII letters. -/
def lowerAscii (s : JsString) : JsString :=
  s.map fun u => if u.inRange 'A' 'Z' then u + 32 else u

/-- A contract of two layers. -/
def twoLayers : List OnionLayer := [⟨lit "Domain", 1⟩, ⟨lit "Application", 2⟩]

/-- A file of the outer layer that imports one of the inner layer. -/
def twoFiles : List SourceFile :=
  [⟨lit "domain/entity.mjs", some []⟩,
    ⟨lit "application/use.mjs", some (lit "import '../domain/entity.mjs'")⟩]

theorem onion_of_green_sample :
    IsGreen lowerAscii (some (twoLayers.map some)) twoFiles ∧
      ¬Relation.ReflTransGen (Imports twoFiles) (lit "domain/entity.mjs")
        (lit "application/use.mjs") := by
  have hgreen : IsGreen lowerAscii (some (twoLayers.map some)) twoFiles := by
    unfold IsGreen
    decide +kernel
  refine ⟨hgreen, fun hchain => ?_⟩
  obtain ⟨layerOrder, hparse, hinward⟩ := onion_of_green hgreen
  obtain rfl : [(lit "domain", 1), (lit "application", 2)] = layerOrder :=
    Except.ok.inj ((by decide : _ = _).trans hparse)
  obtain ⟨-, sourceOrder, targetOrder, hsource, htarget, hle, -⟩ :=
    hinward _ (by decide) _ hchain
  obtain rfl := Option.some.inj (htarget.symm.trans (by decide : _ = some (2 : ℤ)))
  obtain rfl := Option.some.inj (hsource.symm.trans (by decide : _ = some (1 : ℤ)))
  exact absurd hle (by decide)

/-! ## Supplements -/

/-- A specifier leads inward by a contract when it does by one that extends it, unless the new layer
is in play. -/
theorem leadsInward_iff {layerOrder' : LayerOrder} {added : JsString} {f : ℤ → ℤ}
    (hextends : Extends layerOrder layerOrder' added f)
    (hadded : ∀ target ∈ knownFiles, ringNameOf toLowerCase target ≠ added)
    {relPath specifier : JsString} {sourceOrder : ℤ} :
    LeadsInward toLowerCase layerOrder' knownFiles relPath (f sourceOrder) specifier ↔
      LeadsInward toLowerCase layerOrder knownFiles relPath sourceOrder specifier := by
  constructor
  · rintro ⟨target, targetOrder', hresolve, hknown, hring', hle⟩
    cases hring : layerOrder.lookup (ringNameOf toLowerCase target) with
    | none => simp [hextends.only _ hring (hadded target hknown)] at hring'
    | some targetOrder =>
      obtain rfl := Option.some.inj (hring'.symm.trans (hextends.kept _ _ hring))
      exact ⟨target, targetOrder, hresolve, hknown, hring, hextends.strictMono.le_iff_le.mp hle⟩
  · rintro ⟨target, targetOrder, hresolve, hknown, hring, hle⟩
    exact ⟨target, f targetOrder, hresolve, hknown, hextends.kept _ _ hring,
      hextends.strictMono.le_iff_le.mpr hle⟩

/-- A file faces inward by a contract when it does by one that extends it. -/
theorem facesInward_iff {layerOrder' : LayerOrder} {added : JsString} {f : ℤ → ℤ}
    (hextends : Extends layerOrder layerOrder' added f)
    (hadded : ∀ target ∈ knownFiles, ringNameOf toLowerCase target ≠ added) {file : SourceFile}
    (hfile : file.relPath ∈ knownFiles) :
    FacesInward toLowerCase layerOrder' knownFiles file ↔
      FacesInward toLowerCase layerOrder knownFiles file := by
  constructor
  · rintro ⟨text, sourceOrder', specifiers, htext, hring', hextracted, hinward⟩
    cases hring : layerOrder.lookup (ringNameOf toLowerCase file.relPath) with
    | none => simp [hextends.only _ hring (hadded _ hfile)] at hring'
    | some sourceOrder =>
      obtain rfl := Option.some.inj (hring'.symm.trans (hextends.kept _ _ hring))
      exact ⟨text, sourceOrder, specifiers, htext, hring, hextracted, fun specifier hspecifier =>
        (leadsInward_iff hextends hadded).mp (hinward specifier hspecifier)⟩
  · rintro ⟨text, sourceOrder, specifiers, htext, hring, hextracted, hinward⟩
    exact ⟨text, f sourceOrder, specifiers, htext, hextends.kept _ _ hring, hextracted,
      fun specifier hspecifier =>
        (leadsInward_iff hextends hadded).mpr (hinward specifier hspecifier)⟩

/-- A supplement that is merged into a contract that parses leaves one that parses, and changes
nothing for a tree without files in its ring: the tree is green after it exactly when it was
before. -/
theorem merge_green {entries : List OnionLayer} {supplement : Option Json}
    {layers' : Option (List OnionLayer)}
    (hparse : parseCanonicalLayers toLowerCase (some (entries.map some)) = .ok layerOrder)
    (hmerge : mergeArchitectureFitnessSupplement toLowerCase (some entries) supplement =
      .ok layers')
    (hadded : ∀ file ∈ files, ringNameOf toLowerCase file.relPath ≠ toLowerCase (lit "SDK")) :
    (∃ layerOrder', parseCanonicalLayers toLowerCase (layers'.map (List.map some)) =
      .ok layerOrder') ∧
    (IsGreen toLowerCase (layers'.map (List.map some)) files ↔
      IsGreen toLowerCase (some (entries.map some)) files) := by
  obtain ⟨layerOrder', f, hparse', hextends⟩ := merge_parse hparse hmerge
  refine ⟨⟨layerOrder', hparse'⟩, ?_⟩
  simp only [isGreen_iff, hparse, hparse', Except.ok.injEq, exists_eq_left']
  refine forall₂_congr fun file hfile =>
    facesInward_iff hextends ?_ (List.mem_map_of_mem hfile)
  exact List.forall_mem_map.mpr hadded

/-- A supplement that puts `SDK` between the two layers. -/
def sdkSupplement : Json :=
  .obj [(lit "layer", .obj [(lit "name", .str (lit "SDK")), (lit "order", .num (.ofInt 2)),
    (lit "position", .str (lit "between")), (lit "dependsOn", .arr [.str (lit "domain")])])]

theorem merge_green_sample :
    IsGreen lowerAscii
      (some ([⟨lit "Domain", 1⟩, ⟨lit "SDK", 2⟩, ⟨lit "Application", 3⟩].map some)) twoFiles := by
  have hparse : parseCanonicalLayers lowerAscii (some (twoLayers.map some)) =
      .ok [(lit "domain", 1), (lit "application", 2)] := by decide
  have hmerge : mergeArchitectureFitnessSupplement lowerAscii (some twoLayers)
      (some sdkSupplement) =
        .ok (some [⟨lit "Domain", 1⟩, ⟨lit "SDK", 2⟩, ⟨lit "Application", 3⟩]) := by
    decide +kernel
  refine (merge_green hparse hmerge (by decide)).2.mpr ?_
  unfold IsGreen
  decide +kernel

end Green

end MetaframerKernel.ArchitectureFitness
