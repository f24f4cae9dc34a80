import MetaframerKernel.Tools.TextPatterns
import MetaframerKernel.Tools.VersioningTrain

/-!
# The changelog check

`CHANGELOG.md` is read line by line: fences turn the reader aside, every other line is looked at
for headings in a form that is refused, and the headings in the canonical form are collected. Seven
rules are then checked of the headings and of the lines that were seen.

## Main definitions

* `ChangelogPolicy`: what the check reads of a policy; `changelogPolicy`: that of the repository;
* `Reading`, `readLine`: the reader;
* `changelogViolations`: the findings.
-/

namespace MetaframerKernel.Versioning

open Js RegExp Patterns

/-! ## Patterns -/

/-- `[ \t]*` -/
def manyBlanks : Pattern CodeUnit := .star true (.one blank)

/-- `[ \t]+` -/
def someBlanks : Pattern CodeUnit := .plus (.one blank)

/-- `#{1,6}` -/
def marks : Pattern CodeUnit :=
  .seq (.one (· == CommonMark.hash)) (.upTo (.one (· == CommonMark.hash)) 5)

/-- `[ \t]+#{1,6}[ \t]+\S`, as a heading goes on behind its container. -/
def headingMark : Pattern CodeUnit := .all [marks, someBlanks, .one nonSpace]

/-- `ATX_HEADING`: `/^(#{1,6})[ \t]+(.*?)[ \t]*$/` -/
def atxHeadingForm : Pattern CodeUnit :=
  .seq .start <| .seq (.group 1 marks) <| .seq someBlanks <|
    .seq (.group 2 (.star false (.one anyUnit))) <| .seq manyBlanks .finish

/-- `INDENTED_HEADING`: `/^[ \t]+#{1,6}[ \t]+\S/` -/
def indentedHeading : Pattern CodeUnit := .all [.start, someBlanks, headingMark]

/-- `BLOCKQUOTED_HEADING`: `/^[ \t]*>[ \t]*#{1,6}[ \t]+\S/` -/
def blockquotedHeading : Pattern CodeUnit :=
  .all [.start, manyBlanks, literal ">", manyBlanks, headingMark]

/-- `(?:[-*+]|\d+[.)])` -/
def itemMark : Pattern CodeUnit := .alt (oneOf "-*+") (.seq (.plus digit) (oneOf ".)"))

/-- `LIST_HEADING`: `/^[ \t]*(?:[-*+]|\d+[.)])[ \t]+#{1,6}[ \t]+\S/` -/
def listHeading : Pattern CodeUnit := .all [.start, manyBlanks, itemMark, someBlanks, headingMark]

/-- `HTML_HEADING`: `/<h[1-6]\b/i` -/
def htmlHeading : Pattern CodeUnit := .all [literalI "<h", oneOf "123456", wordBoundary]

/-- `SETEXT_UNDERLINE`: `/^[ \t]*(?:=+|-{2,})[ \t]*$/` -/
def setextUnderline : Pattern CodeUnit :=
  .all [.start, manyBlanks, .alt (.plus (oneOf "=")) (.seq (oneOf "-") (.plus (oneOf "-"))),
    manyBlanks, .finish]

/-- `LIST_ITEM`: `/^[ \t]*(?:[-*+]|\d+[.)])[ \t]+\S/` -/
def listItem : Pattern CodeUnit := .all [.start, manyBlanks, itemMark, someBlanks, .one nonSpace]

/-- `LINK_DEFINITION`: `/^\[([^\]]+)\]:[ \t]*\S/` -/
def linkDefinition : Pattern CodeUnit :=
  .all [.start, literal "[", .group 1 (.plus (noneOf "]")), literal "]:", manyBlanks, .one nonSpace]

/-- `ISO_DATE`: `/\b\d{4}-\d{2}-\d{2}\b/` -/
def isoDate : Pattern CodeUnit :=
  .all [wordBoundary, .times digit 4, literal "-", .times digit 2, literal "-", .times digit 2,
    wordBoundary]

/-- `\d+\.\d+\.\d+` -/
def threeNumbers : Pattern CodeUnit :=
  .all [.plus digit, literal ".", .plus digit, literal ".", .plus digit]

/-- `RELEASE_TAG_SHAPE`: `/\bv\d+\.\d+\.\d+/` -/
def releaseTagShape : Pattern CodeUnit := .all [wordBoundary, literal "v", threeNumbers]

/-- `MERGE_SUBJECT`: `/\bMerge (?:pull request|branch|remote-tracking)\b/i` -/
def mergeSubject : Pattern CodeUnit :=
  .all [wordBoundary, literalI "merge ",
    .any (literalI "pull request") [literalI "branch", literalI "remote-tracking"], wordBoundary]

/-- `CONVENTIONAL_COMMIT`: `/^[ \t]*[-*+][ \t]+[a-z]+(?:\([^)]*\))?!?:[ \t]/` -/
def conventionalCommit : Pattern CodeUnit :=
  .all [.start, manyBlanks, oneOf "-*+", someBlanks, .plus (.one (CodeUnit.inRange 'a' 'z')),
    .opt (.all [literal "(", .star true (noneOf ")"), literal ")"]), .opt (literal "!"),
      literal ":",
    .one blank]

/-- `[0-9a-f]` -/
def hexDigitForm : Pattern CodeUnit := .one hexClass

/-- `HEX_TOKEN`: `/\b[0-9a-f]{7,40}\b/g` -/
def hexToken : Pattern CodeUnit :=
  .all [wordBoundary, .times hexDigitForm 7, .upTo hexDigitForm 33, wordBoundary]

/-- `URL`: `/https?:\/\/\S+/g` -/
def url : Pattern CodeUnit :=
  .all [literal "http", .opt (literal "s"), literal "://", .plus (.one nonSpace)]

/-- `[0-9A-Za-z-]+` -/
def versionField : Pattern CodeUnit :=
  .plus (.one fun u => u.inRange '0' '9' || u.inRange 'A' 'Z' || u.inRange 'a' 'z' || u.isChar '-')

/-- `VERSION_TOKEN`:
`/(?<![\w.-])\d+\.\d+\.\d+(?:-[0-9A-Za-z-]+(?:\.[0-9A-Za-z-]+)*)?(?![\w-])/g` -/
def versionToken : Pattern CodeUnit :=
  .all [.behind false fun u => wordUnit u || u.oneOf ".-", threeNumbers,
    .opt (.all [literal "-", versionField, .star true (.seq (literal ".") versionField)]),
    .ahead false (.one fun u => wordUnit u || u.isChar '-')]

/-! ## The policy -/

/-- What the check reads of a policy. -/
structure ChangelogPolicy where
  /-- `changelog.title` -/
  title : JsString
  /-- `changelog.requiredPreambleTokens` -/
  requiredPreambleTokens : Option (List JsString)
  /-- `changelog.unreleasedCount` -/
  unreleasedCount : ℕ
  /-- `changelog.categories` -/
  categories : List JsString
  /-- `changelog.categoryDepth` -/
  categoryDepth : Option ℕ
  /-- `changelog.linkDefinitionsAllowed` -/
  linkDefinitionsAllowed : Bool
  /-- `changelog.yankedAllowed` -/
  yankedAllowed : Bool
  /-- `changelog.derivedFromGitLog` -/
  derivedFromGitLog : Bool
  /-- `release.knownNonReleaseTags` -/
  knownNonReleaseTags : Option (List JsString)
  /-- `currentVersion.value` -/
  currentVersion : Option JsString
  /-- `currentVersion.previousValue` -/
  previousVersion : Option JsString
  /-- `train.finalVersion` -/
  finalVersion : Option JsString
  /-- `ceiling.maxVersion` -/
  maxVersion : Option JsString
  /-- `specifications.semver.version` -/
  semver : Option JsString
  /-- `specifications.keepAChangelog.version` -/
  keepAChangelog : Option JsString

/-- `expectedVersionTokens(policy)` -/
def expectedVersionTokens (policy : ChangelogPolicy) : List JsString :=
  [policy.currentVersion, policy.previousVersion, policy.finalVersion, policy.maxVersion,
    policy.semver, policy.keepAChangelog].filterMap id

/-- `versioning-policy.json` -/
def changelogPolicy : ChangelogPolicy :=
  { title := lit "Changelog"
    requiredPreambleTokens :=
      some [lit "Keep a Changelog", lit "1.1.0", lit "Semantic Versioning", lit "2.0.0"]
    unreleasedCount := 1
    categories :=
      [lit "Added", lit "Changed", lit "Deprecated", lit "Removed", lit "Fixed", lit "Security"]
    categoryDepth := some 3
    linkDefinitionsAllowed := false
    yankedAllowed := false
    derivedFromGitLog := false
    knownNonReleaseTags := some [lit "kernel-runtime-substrate-s1-activated"]
    currentVersion := some (lit "0.1.0-alpha.1")
    previousVersion := some (lit "0.0.0-planning")
    finalVersion := some (lit "0.1.0")
    maxVersion := some (lit "0.1.0")
    semver := some (lit "2.0.0")
    keepAChangelog := some (lit "1.1.0") }

/-! ## The reader -/

/-- A heading that was collected. -/
structure Heading where
  depth : ℕ
  text : JsString
  /-- The lines seen before it -/
  index : ℕ

/-- `ATX_HEADING.exec(line)`, its depth and its text. -/
def atxHeading (line : JsString) : Option (ℕ × JsString) :=
  (atxHeadingForm.exec line).map fun m =>
    (((m.group 1).getD []).length, (m.group 2).getD [])

/-- What is found in one line, with the line seen before it. -/
def lineFindings (policy : ChangelogPolicy) (previous : Option JsString) (line : JsString) :
    List JsString :=
  findingIf (htmlHeading.test line) (lit "changelog-html-heading:" ++ trim line) ++
  -- one finding a line for the three forms of a heading that is not at column zero
  (if blockquotedHeading.test line then [lit "changelog-blockquoted-heading:" ++ trim line]
    else if listHeading.test line then [lit "changelog-heading-in-list:" ++ trim line]
    else findingIf (indentedHeading.test line) (lit "changelog-indented-heading:" ++ trim line)) ++
  (match previous with
    | none => []
    | some previous =>
        findingIf (setextUnderline.test line ∧ trim previous ≠ [] ∧ ¬listItem.test previous ∧
            ¬atxHeadingForm.test previous)
          (lit "changelog-setext-heading:" ++ trim previous ++
            lit " — only column-zero ATX headings are read")) ++
  (match linkDefinition.exec line with
    | none => []
    | some m =>
        findingIf (¬policy.linkDefinitionsAllowed)
          (lit "changelog-link-definition:[" ++ (m.group 1).getD [] ++
            lit "] names a comparison or release target that does not exist"))

/-- What the reader keeps. -/
structure Reading where
  fenced : Bool
  outside : List JsString
  headings : List Heading
  findings : List JsString

/-- One line. -/
def readLine (policy : ChangelogPolicy) (r : Reading) (line : JsString) : Reading :=
  if isFence line then { r with fenced := !r.fenced }
  else if r.fenced then r
  else
    { r with
      outside := r.outside ++ [line]
      headings := r.headings ++
        ((atxHeading line).map fun p => Heading.mk p.1 p.2 r.outside.length).toList
      findings := r.findings ++ lineFindings policy r.outside.getLast? line }

/-- The lines of a text. -/
def readLines (policy : ChangelogPolicy) (markdown : JsString) : Reading :=
  (linesOf markdown).foldl (readLine policy) ⟨false, [], [], []⟩

/-! ## The rules -/

/-- `versionTokens(text)` -/
def versionTokens (text : JsString) : List JsString :=
  (versionToken.matchAll (url.replaceAll (fun _ => lit " ") text)).map Match.text

/-- `[Unreleased]` -/
def unreleasedText : JsString := lit "[Unreleased]"

/-- 1. Exactly one H1, titled by the policy. -/
def titleFindings (policy : ChangelogPolicy) (headings : List Heading) : List JsString :=
  let titles := headings.filter (·.depth = 1)
  findingIf (titles.length = 0) (lit "changelog-title-h1-missing") ++
  findingIf (1 < titles.length)
    (lit "changelog-duplicate-title-h1:" ++ naturalText titles.length) ++
  titles.flatMap fun title =>
    findingIf (title.text ≠ policy.title)
      (lit "changelog-title-text:" ++ describe title.text ++ lit " (expected " ++
        describe policy.title ++ lit ")")

/-- 2. The preamble states which specifications the document follows. -/
def preambleFindings (policy : ChangelogPolicy) (outsideText : JsString) : List JsString :=
  (policy.requiredPreambleTokens.getD []).flatMap fun token =>
    findingIf (¬includes outsideText token) (lit "changelog-preamble-missing-token:" ++ token)

/-- 3. Exactly one `## [Unreleased]`. -/
def unreleasedFindings (policy : ChangelogPolicy) (headings : List Heading) : List JsString :=
  let unreleased :=
    (headings.filter (·.depth = 2)).filter (·.text = unreleasedText)
  if unreleased.length ≠ policy.unreleasedCount then
    [if unreleased.length = 0 then lit "changelog-unreleased-section-missing"
      else lit "changelog-duplicate-unreleased-section:" ++ naturalText unreleased.length]
  else []

/-- It is the first H2, and every other H2 is a claim that a release exists. -/
def sectionFindings (headings : List Heading) : List JsString :=
  let sections := headings.filter (·.depth = 2)
  (match sections with
    | [] => []
    | first :: _ =>
        findingIf (first.text ≠ unreleasedText)
          (lit "changelog-unreleased-not-first-h2:" ++ first.text)) ++
  -- every section but the unreleased one is a release that does not exist
  sections.flatMap fun section_ =>
    if section_.text = unreleasedText then []
    else match versionTokens section_.text with
      | version :: _ =>
          [lit "changelog-fabricated-version-section:" ++ version ++ lit " — no release exists"]
      | [] => [lit "changelog-unknown-section:" ++ section_.text]

/-- A date in a heading. -/
def dateFindings (headings : List Heading) : List JsString :=
  headings.flatMap fun heading =>
    match isoDate.exec heading.text with
    | none => []
    | some date =>
        [lit "changelog-date-without-release:" ++ date.text ++
          lit " dates a heading, and no release exists"]

/-- The lines from a heading to the next. -/
def bodyOf (outside : List JsString) (heading : Heading) (next : Option Heading) : List JsString :=
  (outside.take (next.elim outside.length (·.index))).drop (heading.index + 1)

/-- 4. Categories: the canonical six, at one depth, unique, in canonical order, never empty; with
those seen so far and the place of the last one. -/
def categoryFindings (policy : ChangelogPolicy) (outside : List JsString) :
    List JsString → ℤ → List Heading → List JsString
  | _, _, [] => []
  | seen, lastCanonical, heading :: rest =>
      let depth := policy.categoryDepth.getD 3
      -- a heading of another depth is part of the body
      if heading.text ∉ policy.categories then
        findingIf (heading.depth = depth) (lit "changelog-unknown-category:" ++ heading.text) ++
          categoryFindings policy outside seen lastCanonical rest
      else if heading.depth ≠ depth then
        (lit "changelog-category-wrong-depth:" ++ heading.text ++ lit ":h" ++
            naturalText heading.depth) ::
          categoryFindings policy outside seen lastCanonical rest
      else
        let canonical : ℤ := policy.categories.idxOf heading.text
        findingIf (heading.text ∈ seen) (lit "changelog-duplicate-category:" ++ heading.text) ++
        findingIf (canonical < lastCanonical)
          (lit "changelog-category-out-of-order:" ++ heading.text) ++
        findingIf (¬(bodyOf outside heading rest.head?).any listItem.test)
          (lit "changelog-empty-category:" ++ heading.text ++
            lit " — an empty group reads as a claim nobody made") ++
        categoryFindings policy outside
          -- the place is compared with the furthest one so far, not with the last
          (if heading.text ∈ seen then seen else seen ++ [heading.text])
          (if canonical < lastCanonical then lastCanonical else canonical) rest

/-- 5. Yank markers, tag references and release-shaped tags: each presumes a release. -/
def tagFindings (policy : ChangelogPolicy) (outsideText withoutUrls : JsString) : List JsString :=
  findingIf (includes outsideText (lit "[YANKED]") ∧ ¬policy.yankedAllowed)
    (lit "changelog-yanked-marker — a yank presumes a release existed to withdraw") ++
  -- a reference is a finding whether or not the tag exists
  ((policy.knownNonReleaseTags.getD []).flatMap fun tag =>
    findingIf (includes withoutUrls tag)
      (lit "changelog-tag-reference:" ++ tag ++ lit " is an activation record, never a release")) ++
  match releaseTagShape.exec withoutUrls with
  | none => []
  | some tag =>
      [lit "changelog-release-tag-reference:" ++ tag.text ++
        lit " names a release tag that does not exist"]

/-- 6. Commit-log derivation. -/
def commitFindings (policy : ChangelogPolicy) (outside : List JsString) (withoutUrls : JsString) :
    List JsString :=
  if policy.derivedFromGitLog then []
  else
    ((hexToken.matchAll withoutUrls).flatMap fun token =>
      -- a word of hexadecimal letters alone is no hash
      findingIf (digit.test token.text) (lit "changelog-raw-commit-hash:" ++ token.text)) ++
    findingIf (mergeSubject.test withoutUrls) (lit "changelog-merge-commit-entry") ++
    outside.flatMap fun line =>
      findingIf (conventionalCommit.test line)
        (lit "changelog-conventional-commit-entry:" ++ trim line)

/-- 7. Version tokens, read in context. -/
def versionFindings (policy : ChangelogPolicy) (outsideText : JsString) : List JsString :=
  (versionTokens outsideText).flatMap fun token =>
    findingIf (token ∉ expectedVersionTokens policy)
      (lit "changelog-unexpected-version-token:" ++ token ++
        lit " is not a version this document may name")

/-- `changelogViolations(markdown, policy)` -/
def changelogViolations (markdown : JsString) (policy : ChangelogPolicy) : List JsString :=
  let r := readLines policy markdown
  let outsideText := joinLines r.outside
  let withoutUrls := url.replaceAll (fun _ => lit " ") outsideText
  dedupe <|
    -- the findings of the lines come first, then those of the document
    r.findings ++ titleFindings policy r.headings ++ preambleFindings policy outsideText ++
    unreleasedFindings policy r.headings ++ sectionFindings r.headings ++ dateFindings r.headings ++
    categoryFindings policy r.outside [] (-1) r.headings ++
    tagFindings policy outsideText withoutUrls ++ commitFindings policy r.outside withoutUrls ++
    versionFindings policy outsideText

end MetaframerKernel.Versioning
