import MetaframerKernel.Application.PolicyStatement
import MetaframerKernel.Js.Digits
import MetaframerKernel.Js.Doubles
import MetaframerKernel.Orders.Lexicographic

/-!
# Semantic versions

`parseSemVer` and `comparePrecedence` of the versioning check. A version is read once more with
its numbers exact, which is how rule 11 of Semantic Versioning 2.0.0 compares them, and the two
readings are compared: the code rounds a numeric identifier to a Number.

## Main definitions

* `exec`: `SEMVER.exec(value)`, the texts its groups match;
* `parseSemVer`, `comparePrecedence`;
* `Version.fields`: what rule 11 compares, in the order in which it does;
* `rule11`: the comparison of rule 11.

## Main results

* `exec_eq_some_iff`: what is matched is put together again from its groups;
* `compareVersions_eq`: the loop of `comparePrecedence` is the comparison of the fields;
* `isRule11_iff`: `comparePrecedence` is rule 11 where rounding does not turn the first
  difference of two versions, and a total preorder everywhere.
-/

namespace MetaframerKernel.Versioning

open Js

/-! ## Separators -/

def dot : CodeUnit := 0x2E

def hyphen : CodeUnit := 0x2D

def plus : CodeUnit := 0x2B

/-- A text up to the first separator, and the text after it. -/
def cut (separator : CodeUnit) : JsString → JsString × Option JsString
  | [] => ([], none)
  | u :: s =>
      if u = separator then ([], some s)
      else (u :: (cut separator s).1, (cut separator s).2)

/-- A text behind its separator. -/
def behind (separator : CodeUnit) (rest : Option JsString) : JsString :=
  rest.elim [] (separator :: ·)

section Separators

variable {separator : CodeUnit} {s : JsString} {rest : Option JsString}

/-- A text is cut before its first separator. -/
theorem cut_append (h : separator ∉ s) :
    cut separator (s ++ behind separator rest) = (s, rest) := by
  induction s with
  | nil =>
    cases rest with
    | none => rfl
    | some t => exact if_pos rfl
  | cons u s ih =>
    rw [List.mem_cons, not_or] at h
    rw [List.cons_append, cut, if_neg (Ne.symm h.1), ih h.2]

/-- The two sides of the cut make up the text. -/
theorem append_cut (separator : CodeUnit) (s : JsString) :
    (cut separator s).1 ++ behind separator (cut separator s).2 = s := by
  induction s with
  | nil => rfl
  | cons u s ih =>
    rw [cut]
    split_ifs with h
    · rw [h]
      rfl
    · exact congrArg (u :: ·) ih

/-- A text without a separator has one part, and every part is without it. -/
theorem notMem_splitOn (separator : CodeUnit) (s : JsString) :
    ∀ part ∈ s.splitOn separator, separator ∉ part := by
  induction s with
  | nil => simp
  | cons u s ih =>
    obtain ⟨first, parts, hparts⟩ := List.exists_cons_of_ne_nil (List.splitOn_ne_nil separator s)
    rw [List.splitOn_cons_eq_if_modifyHead, hparts, List.modifyHead_cons]
    rw [hparts, List.forall_mem_cons] at ih
    split_ifs with h
    · exact List.forall_mem_cons.mpr ⟨List.not_mem_nil, List.forall_mem_cons.mpr ih⟩
    · refine List.forall_mem_cons.mpr ⟨?_, ih.2⟩
      refine List.not_mem_cons_of_ne_of_not_mem ?_ ih.1
      rintro rfl
      exact h (beq_self_eq_true _)

/-- The parts of a text are those it is put together from. -/
theorem splitOn_eq_iff {parts : List JsString} (hne : parts ≠ []) :
    s.splitOn separator = parts ↔
      (∀ part ∈ parts, separator ∉ part) ∧ [separator].intercalate parts = s := by
  constructor
  · rintro rfl
    exact ⟨notMem_splitOn separator s, List.intercalate_splitOn separator⟩
  · rintro ⟨hparts, rfl⟩
    exact List.splitOn_intercalate separator hparts hne

end Separators

/-! ## The grammar -/

/-- The texts that the groups of `SEMVER` match. -/
structure Groups where
  major : JsString
  minor : JsString
  patch : JsString
  prerelease : Option JsString
  build : Option JsString
deriving DecidableEq

namespace Groups

/-- The text that was matched. -/
def text (g : Groups) : JsString :=
  [dot].intercalate [g.major, g.minor, g.patch] ++ behind hyphen g.prerelease ++
    behind plus g.build

/-- Each group matches its part of the expression. -/
def isValid (g : Groups) : Bool :=
  [g.major, g.minor, g.patch].all isNumericIdentifier &&
    g.prerelease.all (fun t => (t.splitOn dot).all isPreReleaseIdentifier) &&
    g.build.all fun t => (t.splitOn dot).all isBuildIdentifier

end Groups

/-- `SEMVER.exec(value)`. The core has no hyphen and neither it nor the pre-release has a plus
sign, so the first of each opens its group. -/
def exec (s : JsString) : Option Groups :=
  let main := cut plus s
  let core := cut hyphen main.1
  match core.1.splitOn dot with
  | [major, minor, patch] =>
      let g : Groups := ⟨major, minor, patch, core.2, main.2⟩
      if g.isValid then some g else none
  | _ => none

section Grammar

/-- The pattern of numbers accepts the canonical decimals. -/
theorem isNumericIdentifier_iff {s : JsString} :
    isNumericIdentifier s = true ↔ IsCanonical s := by
  cases s with
  | nil => exact ⟨fun h => absurd h (by decide), fun h => absurd rfl h.2.1⟩
  | cons u s =>
    have hdigits : (u :: s).all digitClass = true ↔ ∀ v ∈ u :: s, isDigitUnit v = true := by
      rw [List.all_eq_true]
      rfl
    have hhead : CodeUnit.inRange '1' '9' u = true ↔ isDigitUnit u = true ∧ u ≠ 48 := by
      have hzero : u ≠ 48 ↔ u.val ≠ 48 := ⟨fun h hval => h (Fin.ext hval), fun h heq =>
        h (heq ▸ rfl)⟩
      rw [isDigitUnit_iff, hzero, CodeUnit.inRange, Bool.and_eq_true, decide_eq_true_eq,
        decide_eq_true_eq, show '1'.toNat = 49 from rfl, show '9'.toNat = 57 from rfl]
      omega
    rw [isNumericIdentifier, Bool.or_eq_true, Bool.and_eq_true, beq_iff_eq, hdigits,
      List.head?_cons, Option.any_some, hhead, IsCanonical, List.head?_cons]
    constructor
    · rintro (h | ⟨⟨-, hne⟩, hall⟩)
      · cases h
        exact ⟨List.forall_mem_singleton.mpr rfl, List.cons_ne_nil _ _, .inl rfl⟩
      · exact ⟨hall, List.cons_ne_nil u s, .inr fun h => hne (Option.some_inj.mp h)⟩
    · rintro ⟨hall, -, hone | hne⟩
      · obtain rfl := List.length_eq_zero_iff.mp (Nat.succ_injective hone)
        by_cases hzero : u = 48
        · exact .inl (hzero ▸ rfl)
        · exact .inr ⟨⟨hall u List.mem_cons_self, hzero⟩, hall⟩
      · exact .inr ⟨⟨hall u List.mem_cons_self, fun h => hne (h ▸ rfl)⟩, hall⟩

/-- A number has no other units than digits. -/
theorem notMem_of_isNumericIdentifier {s : JsString} (h : isNumericIdentifier s = true)
    {u : CodeUnit} (hu : isDigitUnit u = false) : u ∉ s := by
  intro hmem
  have hdigit := (isNumericIdentifier_iff.mp h).1 u hmem
  rw [hu] at hdigit
  cases hdigit

/-- A unit that is in no part, and is not the separator, is not in the joined text. -/
theorem notMem_intercalate {separator u : CodeUnit} {parts : List JsString} (hu : u ≠ separator)
    (h : ∀ part ∈ parts, u ∉ part) : u ∉ [separator].intercalate parts := by
  induction parts with
  | nil => exact List.not_mem_nil
  | cons first parts ih =>
    rw [List.forall_mem_cons] at h
    cases parts with
    | nil => simpa [List.intercalate] using h.1
    | cons second parts =>
      rw [List.intercalate_cons_cons, List.mem_append, List.mem_append, not_or, not_or]
      exact ⟨⟨h.1, by simpa using hu⟩, ih h.2⟩

/-- A pre-release identifier is made of the units of its class. -/
theorem identifierClass_of_isPreReleaseIdentifier {s : JsString}
    (h : isPreReleaseIdentifier s = true) : ∀ u ∈ s, identifierClass u = true := by
  intro u hu
  rw [isPreReleaseIdentifier, Bool.or_eq_true, Bool.and_eq_true] at h
  rcases h with hnumeric | ⟨hall, -⟩
  · have hdigit : digitClass u = true := (isNumericIdentifier_iff.mp hnumeric).1 u hu
    simp [identifierClass, hdigit]
  · exact List.all_eq_true.mp hall u hu

/-- What is matched is put together again from its groups, and each of them is as the expression
has it. -/
theorem exec_eq_some_iff {s : JsString} {g : Groups} :
    exec s = some g ↔ g.isValid = true ∧ g.text = s := by
  constructor
  · intro h
    rw [exec] at h
    split at h
    · rename_i major minor patch hcore
      dsimp only at h
      split_ifs at h with hvalid
      cases h
      refine ⟨hvalid, ?_⟩
      have hcore' := ((splitOn_eq_iff (by simp)).mp hcore).2
      rw [Groups.text, hcore', append_cut, append_cut]
    · cases h
  · rintro ⟨hvalid, rfl⟩
    obtain ⟨hcore, hpre⟩ : (∀ t ∈ [g.major, g.minor, g.patch], isNumericIdentifier t = true) ∧
        g.prerelease.all (fun t => (t.splitOn dot).all isPreReleaseIdentifier) = true := by
      rw [Groups.isValid, Bool.and_eq_true, Bool.and_eq_true, List.all_eq_true] at hvalid
      exact hvalid.1
    -- the first plus and the first hyphen are those that the text was put together with
    have hhyphen : hyphen ∉ [dot].intercalate [g.major, g.minor, g.patch] :=
      notMem_intercalate (by decide) fun t ht => notMem_of_isNumericIdentifier (hcore t ht) rfl
    have hplus : plus ∉ [dot].intercalate [g.major, g.minor, g.patch] ++
        behind hyphen g.prerelease := by
      rw [List.mem_append, not_or]
      refine ⟨notMem_intercalate (by decide) fun t ht =>
        notMem_of_isNumericIdentifier (hcore t ht) rfl, ?_⟩
      cases hg : g.prerelease with
      | none => exact List.not_mem_nil
      | some t =>
        rw [hg, Option.all_some, List.all_eq_true] at hpre
        refine List.not_mem_cons_of_ne_of_not_mem (by decide) ?_
        rw [show t = [dot].intercalate (t.splitOn dot) from (List.intercalate_splitOn dot).symm]
        refine notMem_intercalate (by decide) fun part hpart hmem => ?_
        have hclass := identifierClass_of_isPreReleaseIdentifier (hpre part hpart) plus hmem
        exact absurd hclass (by decide)
    have hparts : ([dot].intercalate [g.major, g.minor, g.patch]).splitOn dot =
        [g.major, g.minor, g.patch] :=
      List.splitOn_intercalate dot
        (fun t ht => notMem_of_isNumericIdentifier (hcore t ht) rfl) (by simp)
    have hfst : cut plus g.text = (_, g.build) := cut_append hplus
    rw [exec, hfst, cut_append hhyphen]
    dsimp only
    rw [hparts]
    exact if_pos hvalid

end Grammar

/-! ## Versions -/

/-- A pre-release identifier over the numbers `N`. -/
inductive Identifier (N : Type) where
  | numeric (n : N)
  | alphanumeric (s : JsString)
deriving DecidableEq

/-- A parsed version over the numbers `N`. -/
@[ext]
structure Version (N : Type) where
  major : N
  minor : N
  patch : N
  prerelease : List (Identifier N)
  build : List JsString
deriving DecidableEq

/-- A non-negative integer as a Number holds it, or `Infinity`. -/
abbrev Number := WithTop ℕ

/-- `Number(text)`, for a numeric identifier. -/
def toNumber (text : JsString) : Number := numberOf (decimal text)

/-- `NUMERIC_IDENTIFIER.test(identifier) ? Number(identifier) : identifier` -/
def identifier {N : Type} (read : JsString → N) (text : JsString) : Identifier N :=
  if isNumericIdentifier text then .numeric (read text) else .alphanumeric text

/-- The parts of a group, none when it is not there. -/
def parts (group : Option JsString) : List JsString := group.elim [] (·.splitOn dot)

/-- The version the groups spell, with its numbers read by `read`. -/
def Groups.version {N : Type} (read : JsString → N) (g : Groups) : Version N :=
  { major := read g.major
    minor := read g.minor
    patch := read g.patch
    prerelease := (parts g.prerelease).map (identifier read)
    build := parts g.build }

/-- `parseSemVer` -/
def parseSemVer (value : JsString) : Option (Version Number) :=
  (exec value).map (Groups.version toNumber)

/-! ## Comparison -/

section Comparison

variable {N : Type} [LinearOrder N]

/-- `sign(left - right)`. The difference of two infinities is `NaN`, whose sign is 0. -/
def sign (left right : N) : Ordering := compare left right

/-- `compareIdentifier` -/
def compareIdentifier : Identifier N → Identifier N → Ordering
  | .numeric left, .numeric right => sign left right
  | .numeric _, .alphanumeric _ => .lt
  | .alphanumeric _, .numeric _ => .gt
  | .alphanumeric left, .alphanumeric right =>
      if left < right then .lt else if right < left then .gt else .eq

/-- The loop over the identifiers both pre-releases have, and the lengths after it. -/
def compareShared : List (Identifier N) → List (Identifier N) → Ordering
  | x :: xs, y :: ys => (compareIdentifier x y).then (compareShared xs ys)
  | [], [] => .eq
  | [], _ :: _ => .lt
  | _ :: _, [] => .gt

/-- The comparison of two pre-releases, of which none stands for a release. -/
def comparePrerelease : List (Identifier N) → List (Identifier N) → Ordering
  | [], [] => .eq
  | [], _ :: _ => .gt
  | _ :: _, [] => .lt
  | x :: xs, y :: ys => compareShared (x :: xs) (y :: ys)

/-- What `comparePrecedence` does with two versions it could parse. -/
def compareVersions (a b : Version N) : Ordering :=
  (sign a.major b.major).then <| (sign a.minor b.minor).then <|
    (sign a.patch b.patch).then (comparePrerelease a.prerelease b.prerelease)

end Comparison

/-- `describe(value)`, for a string. -/
def describe (value : JsString) : JsString := ofText (quote value)

/-- `not a valid SemVer 2.0.0 version: …` -/
def notAVersion (value : JsString) : NativeError :=
  .typeError (lit "not a valid SemVer 2.0.0 version: " ++ describe value)

/-- `comparePrecedence` -/
def comparePrecedence (left right : JsString) : Except NativeError Ordering := do
  let a ← (parseSemVer left).elim (.error (notAVersion left)) .ok
  let b ← (parseSemVer right).elim (.error (notAVersion right)) .ok
  return compareVersions a b

/-! ## Rule 11 -/

/-- A field of a version: a number below every text, and both below the end of a version that is
no pre-release. -/
abbrev Field (N : Type) := WithTop (N ⊕ₗ JsString)

def Identifier.field {N : Type} : Identifier N → Field N
  | .numeric n => (toLex (.inl n) : N ⊕ₗ JsString)
  | .alphanumeric s => (toLex (.inr s) : N ⊕ₗ JsString)

/-- What rule 11 compares, in the order in which it does. Build metadata has no part in it. -/
def Version.fields {N : Type} (v : Version N) : List (Field N) :=
  (Identifier.numeric v.major).field :: (Identifier.numeric v.minor).field ::
    (Identifier.numeric v.patch).field ::
      if v.prerelease = [] then [⊤] else v.prerelease.map Identifier.field

section Fields

variable {N : Type} [LinearOrder N]

/-- Fields are ordered as what they hold. -/
theorem field_lt_field {x y : N ⊕ₗ JsString} : (x : Field N) < (y : Field N) ↔ x < y :=
  WithTop.coe_lt_coe

/-- Identifiers compare as their fields. -/
theorem compareIdentifier_eq (x y : Identifier N) :
    compareIdentifier x y = compare x.field y.field := by
  cases x with
  | numeric n =>
    cases y with
    | numeric m =>
      rw [compareIdentifier, sign]
      rcases lt_trichotomy n m with hlt | rfl | hgt
      · rw [compare_lt_iff_lt.mpr hlt]
        exact (compare_lt_iff_lt.mpr (field_lt_field.mpr (Sum.Lex.inl_lt_inl_iff.mpr hlt))).symm
      · rw [compare_eq_iff_eq.mpr rfl, compare_eq_iff_eq.mpr rfl]
      · rw [compare_gt_iff_gt.mpr hgt]
        exact (compare_gt_iff_gt.mpr (field_lt_field.mpr (Sum.Lex.inl_lt_inl_iff.mpr hgt))).symm
    | alphanumeric t =>
      exact (compare_lt_iff_lt.mpr (field_lt_field.mpr (Sum.Lex.inl_lt_inr _ _))).symm
  | alphanumeric s =>
    cases y with
    | numeric m =>
      exact (compare_gt_iff_gt.mpr (field_lt_field.mpr (Sum.Lex.inl_lt_inr _ _))).symm
    | alphanumeric t =>
      rw [compareIdentifier]
      rcases lt_trichotomy s t with hlt | rfl | hgt
      · rw [if_pos hlt]
        exact (compare_lt_iff_lt.mpr (field_lt_field.mpr (Sum.Lex.inr_lt_inr_iff.mpr hlt))).symm
      · rw [if_neg (lt_irrefl s), if_neg (lt_irrefl s), compare_eq_iff_eq.mpr rfl]
      · rw [if_neg hgt.not_gt, if_pos hgt]
        exact (compare_gt_iff_gt.mpr (field_lt_field.mpr (Sum.Lex.inr_lt_inr_iff.mpr hgt))).symm

/-- Lists of identifiers compare as their fields, lexicographically. -/
theorem compareShared_eq (xs ys : List (Identifier N)) :
    compareShared xs ys = compare (xs.map Identifier.field) (ys.map Identifier.field) := by
  induction xs generalizing ys with
  | nil => cases ys <;> rfl
  | cons x xs ih =>
    cases ys with
    | nil => rfl
    | cons y ys =>
      rw [compareShared, compareIdentifier_eq, ih ys, List.map_cons, List.map_cons,
        Lexicographic.compare_cons]

omit [LinearOrder N] in
/-- No identifier is above all others. -/
theorem field_ne_top (x : Identifier N) : x.field ≠ ⊤ := by
  cases x <;> exact WithTop.coe_ne_top

/-- The release of a version is above its pre-releases. -/
theorem comparePrerelease_eq (xs ys : List (Identifier N)) :
    comparePrerelease xs ys =
      compare (if xs = [] then [⊤] else xs.map Identifier.field)
        (if ys = [] then [⊤] else ys.map Identifier.field) := by
  cases xs with
  | nil =>
    cases ys with
    | nil =>
      rw [if_pos rfl, Lexicographic.compare_cons, compare_eq_iff_eq.mpr rfl]
      rfl
    | cons y ys =>
      have hgt : compare (⊤ : Field N) y.field = .gt :=
        compare_gt_iff_gt.mpr (lt_top_iff_ne_top.mpr (field_ne_top y))
      rw [if_pos rfl, if_neg (List.cons_ne_nil y ys), List.map_cons, Lexicographic.compare_cons,
        hgt, Ordering.gt_then, comparePrerelease]
  | cons x xs =>
    cases ys with
    | nil =>
      have hlt : compare x.field (⊤ : Field N) = .lt :=
        compare_lt_iff_lt.mpr (lt_top_iff_ne_top.mpr (field_ne_top x))
      rw [if_pos rfl, if_neg (List.cons_ne_nil x xs), List.map_cons, Lexicographic.compare_cons,
        hlt, Ordering.lt_then, comparePrerelease]
    | cons y ys =>
      rw [if_neg (List.cons_ne_nil x xs), if_neg (List.cons_ne_nil y ys), ← compareShared_eq,
        comparePrerelease]

/-- Numbers compare as numeric identifiers. -/
theorem sign_eq (m n : N) :
    sign m n = compare (Identifier.numeric m).field (Identifier.numeric n).field :=
  compareIdentifier_eq (.numeric m) (.numeric n)

/-- The loops of `comparePrecedence` are the comparison of the fields. -/
theorem compareVersions_eq (a b : Version N) :
    compareVersions a b = compare a.fields b.fields := by
  rw [compareVersions, sign_eq, sign_eq, sign_eq, comparePrerelease_eq, Version.fields,
    Version.fields, Lexicographic.compare_cons, Lexicographic.compare_cons,
    Lexicographic.compare_cons]

end Fields

/-! ## Rounding -/

/-- A field with its number rounded. -/
def Field.round : Field ℕ → Field Number :=
  WithTop.map fun x => toLex (Sum.map numberOf id (ofLex x))

/-- Rounding keeps numbers in order and below every text. -/
theorem Field.round_mono : Monotone Field.round := by
  refine Monotone.withTop_map fun x y h => ?_
  rw [Sum.Lex.le_def] at h ⊢
  rw [ofLex_toLex, ofLex_toLex]
  cases h with
  | inl hle => exact .inl (numberOf_mono hle)
  | inr hle => exact .inr hle
  | sep => exact .sep _ _

/-- An identifier that is read as a Number has the rounded field. -/
theorem field_identifier (t : JsString) :
    (identifier toNumber t).field = Field.round (identifier decimal t).field := by
  rw [identifier, identifier]
  split_ifs <;> rfl

/-- The code reads the numbers of a version rounded. -/
theorem fields_version (g : Groups) :
    (g.version toNumber).fields = (g.version decimal).fields.map Field.round := by
  rw [Version.fields, Version.fields, List.map_cons, List.map_cons, List.map_cons, apply_ite
    (List.map Field.round), List.map_map]
  simp only [Groups.version, List.map_eq_nil_iff, List.map_map]
  refine congrArg₂ List.cons rfl (congrArg₂ List.cons rfl (congrArg₂ List.cons rfl ?_))
  refine if_congr Iff.rfl rfl (List.map_congr_left fun t _ => field_identifier t)

/-- A text that `parseSemVer` accepts. -/
def ValidVersion := {value : JsString // (parseSemVer value).isSome = true}

namespace ValidVersion

/-- A valid version matches the pattern. -/
theorem isSome_exec (v : ValidVersion) : (exec v.1).isSome = true :=
  Option.isSome_map.symm.trans v.2

/-- The texts of the version's parts. -/
def groups (v : ValidVersion) : Groups := (exec v.1).get v.isSome_exec

/-- The version with its numbers exact. -/
def exact (v : ValidVersion) : Version ℕ := v.groups.version decimal

/-- A valid version is matched by its groups. -/
theorem exec_eq (v : ValidVersion) : exec v.1 = some v.groups :=
    (Option.some_get v.isSome_exec).symm

/-- A valid version is parsed from its groups. -/
theorem parseSemVer_eq (v : ValidVersion) :
    parseSemVer v.1 = some (v.groups.version toNumber) := by
  rw [parseSemVer, v.exec_eq, Option.map_some]

end ValidVersion

/-- The comparison of rule 11: field by field, with numbers of any size. -/
def rule11 (v w : ValidVersion) : Ordering := compare v.exact.fields w.exact.fields

/-- `comparePrecedence` answers with the comparison of rule 11. -/
def IsRule11 (v w : ValidVersion) : Prop := comparePrecedence v.1 w.1 = .ok (rule11 v w)

/-- Where the first fields in which two versions differ round to one Number, the fields after
them, rounded, compare as they do. -/
def RoundsInOrder (v w : ValidVersion) : Prop :=
  Lexicographic.KeepsOrder Field.round v.exact.fields w.exact.fields

/-- What `comparePrecedence` computes: the comparison of the rounded fields. -/
theorem comparePrecedence_eq (v w : ValidVersion) :
    comparePrecedence v.1 w.1 =
      .ok (compare (v.exact.fields.map Field.round) (w.exact.fields.map Field.round)) := by
  rw [comparePrecedence, v.parseSemVer_eq, w.parseSemVer_eq, ValidVersion.exact,
    ValidVersion.exact, ← fields_version, ← fields_version, ← compareVersions_eq]
  rfl

/-- `comparePrecedence` puts the first version not above the second. -/
def NotAbove (v w : ValidVersion) : Prop :=
  ∃ o : Ordering, comparePrecedence v.1 w.1 = .ok o ∧ o.isLE = true

/-- Two valid versions compare as their rounded fields. -/
theorem comparePrecedence_eq_ok_iff {v w : ValidVersion} {o : Ordering} :
    comparePrecedence v.1 w.1 = .ok o ↔
      compare (v.exact.fields.map Field.round) (w.exact.fields.map Field.round) = o := by
  rw [comparePrecedence_eq, Except.ok.injEq]

/-- One is not above the other when its rounded fields are not. -/
theorem notAbove_iff {v w : ValidVersion} :
    NotAbove v w ↔
      (compare (v.exact.fields.map Field.round) (w.exact.fields.map Field.round)).isLE = true := by
  simp [NotAbove, comparePrecedence_eq_ok_iff]

/-- Identifiers with one field are equal. -/
theorem field_injective {N : Type} : Function.Injective (Identifier.field (N := N)) := by
  intro x y h
  cases x <;> cases y <;> cases h <;> rfl

/-- Versions with the same fields differ in their build metadata only. -/
theorem eq_of_fields_eq {N : Type} {a b : Version N} (h : a.fields = b.fields) :
    { a with build := [] } = { b with build := [] } := by
  rw [Version.fields, Version.fields, List.cons.injEq, List.cons.injEq, List.cons.injEq] at h
  obtain ⟨hmajor, hminor, hpatch, hprerelease⟩ := h
  have hmajor := Identifier.numeric.inj (field_injective hmajor)
  have hminor := Identifier.numeric.inj (field_injective hminor)
  have hpatch := Identifier.numeric.inj (field_injective hpatch)
  have hprerelease : a.prerelease = b.prerelease := by
    split_ifs at hprerelease with ha hb hb
    · rw [ha, hb]
    · obtain ⟨y, ys, hy⟩ := List.exists_cons_of_ne_nil hb
      rw [hy, List.map_cons, List.cons.injEq] at hprerelease
      exact absurd hprerelease.1.symm (field_ne_top y)
    · obtain ⟨x, xs, hx⟩ := List.exists_cons_of_ne_nil ha
      rw [hx, List.map_cons, List.cons.injEq] at hprerelease
      exact absurd hprerelease.1 (field_ne_top x)
    · exact List.map_injective_iff.mpr field_injective hprerelease
  rw [hmajor, hminor, hpatch, hprerelease]

/-- A field whose number, if it has one, is below `2 ^ 53`. -/
def Field.IsSmall (x : Field ℕ) : Prop := ∀ n : ℕ, x = (Identifier.numeric n).field → n < 2 ^ 53

/-- Small fields are told apart once they are rounded. -/
theorem Field.eq_of_round_eq {x y : Field ℕ} (hx : x.IsSmall) (hy : y.IsSmall)
    (h : Field.round x = Field.round y) : x = y := by
  cases x using WithTop.recTopCoe with
  | top =>
    cases y using WithTop.recTopCoe with
    | top => rfl
    | coe y => cases h
  | coe x =>
    cases y using WithTop.recTopCoe with
    | top => cases h
    | coe y =>
      -- rounding keeps numbers apart from texts, and small numbers apart from each other
      have hsum : Sum.map numberOf id (ofLex x) = Sum.map numberOf id (ofLex y) :=
        WithTop.coe_injective h
      refine congrArg _ (show ofLex x = ofLex y from ?_)
      cases hxn : ofLex x with
      | inl n =>
        cases hyn : ofLex y with
        | inl m =>
          rw [hxn, hyn, Sum.map_inl, Sum.map_inl, Sum.inl.injEq,
            numberOf_of_lt (hy m (congrArg _ hyn)), numberOf_eq_coe_iff (hy m (congrArg _ hyn))]
            at hsum
          rw [hsum]
        | inr t =>
          rw [hxn, hyn] at hsum
          cases hsum
      | inr s =>
        cases hyn : ofLex y with
        | inl m =>
          rw [hxn, hyn] at hsum
          cases hsum
        | inr t =>
          rw [hxn, hyn] at hsum
          exact congrArg Sum.inr (Sum.inr_injective hsum)

/-- Versions of small numbers are rounded in order. -/
theorem roundsInOrder_of_isSmall {v w : ValidVersion} (hv : ∀ x ∈ v.exact.fields, x.IsSmall)
    (hw : ∀ y ∈ w.exact.fields, y.IsSmall) : RoundsInOrder v w := by
  exact Lexicographic.keepsOrder_of_injOn fun x hx y hy => Field.eq_of_round_eq (hv x hx) (hw y hy)

/-- `comparePrecedence` is the comparison of rule 11 where rounding keeps the order of the two
versions, and only there. It is a total preorder on all valid versions, and where rounding keeps
the order two versions with the same precedence differ in their build metadata only. -/
theorem isRule11_iff (u v w : ValidVersion) :
    (IsRule11 v w ↔ RoundsInOrder v w) ∧
      comparePrecedence v.1 v.1 = .ok .eq ∧
      (∃ o, comparePrecedence v.1 w.1 = .ok o ∧ comparePrecedence w.1 v.1 = .ok o.swap) ∧
      (NotAbove u v → NotAbove v w → NotAbove u w) ∧
      (RoundsInOrder v w → comparePrecedence v.1 w.1 = .ok .eq →
        { v.exact with build := [] } = { w.exact with build := [] }) := by
  have hiff : IsRule11 v w ↔ RoundsInOrder v w := by
    rw [IsRule11, comparePrecedence_eq_ok_iff, rule11]
    exact Lexicographic.compare_map_eq_iff Field.round_mono _ _
  refine ⟨hiff, ?_, ⟨_, comparePrecedence_eq v w, ?_⟩, ?_, ?_⟩
  · rw [comparePrecedence_eq_ok_iff]
    exact Std.ReflCmp.compare_self
  · rw [comparePrecedence_eq_ok_iff]
    exact Std.OrientedCmp.eq_swap
  · rw [notAbove_iff, notAbove_iff, notAbove_iff]
    exact Std.TransCmp.isLE_trans
  · intro hrounds heq
    have hrule : comparePrecedence v.1 w.1 = .ok (rule11 v w) := hiff.mpr hrounds
    rw [heq, Except.ok.injEq] at hrule
    have hfields : compare v.exact.fields w.exact.fields = .eq := hrule.symm
    exact eq_of_fields_eq (Lexicographic.eq_of_compare_eq hfields)

/-- Two versions that differ in a number above `2 ^ 53` have no order for the code. -/
theorem not_isRule11_large :
    ∃ v w : ValidVersion, v.1 = lit "9007199254740993.0.0" ∧
      w.1 = lit "9007199254740992.0.0" ∧ ¬IsRule11 v w := by
  refine ⟨⟨lit "9007199254740993.0.0", by decide +kernel⟩,
    ⟨lit "9007199254740992.0.0", by decide +kernel⟩, rfl, rfl, ?_⟩
  intro h
  exact absurd (comparePrecedence_eq_ok_iff.mp h) (by decide +kernel)

end MetaframerKernel.Versioning
