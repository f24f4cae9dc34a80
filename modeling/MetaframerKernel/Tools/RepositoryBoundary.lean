import MetaframerKernel.Tools.TextPatterns
import MetaframerKernel.Tools.VersioningTrain

/-!
# The README contract

`README.md` is split into segments at its headings, in any of the forms in which a reader sees them,
and for the readiness fence into semantic units: sentences and list items outside the fenced blocks.
The contract then asks for one current status, for bootstrap tokens within history only, and that no
unit opens a stage that is closed.

## Main definitions

* `parseReadme`: the headings and the segments; `semanticUnits`: the units;
* `undeniedReadinessTerms`: the readiness terms a unit asserts;
* `readmeContractViolations`: the findings.
-/

namespace MetaframerKernel.RepositoryBoundary

open Js RegExp Patterns
open Versioning (findingIf describe toLowerCase)

/-! ## Constants -/

/-- `CURRENT_STATUS_TITLE` -/
def currentStatusTitle : JsString := lit "current status"

/-- `CURRENT_STATUS_DEPTH` -/
def currentStatusDepth : ℕ := 2

/-- `CURRENT_STATUS_REQUIRED` -/
def currentStatusRequired : List JsString :=
  [lit "GO-KERNEL-DEVELOPMENT-ONLY", lit "kernel-runtime-substrate-s1-activated"]

/-- `CURRENT_STATUS_FLAGS` -/
def currentStatusFlags : List (JsString × Bool) :=
  [(lit "codeStartAllowed", true), (lit "runtimeCodeAllowed", true),
    (lit "runtimeImplementationStarted", true), (lit "kernelReady", false),
    (lit "sdkReady", false), (lit "appBuildable", false), (lit "releaseAllowed", false),
    (lit "deployAllowed", false), (lit "productionAllowed", false), (lit "gapClosed", false)]

/-- `HISTORICAL_ONLY_TOKENS` -/
def historicalOnlyTokens : List JsString :=
  [lit "PLANNING_ONLY", lit "VALID_BLOCKED", lit "NO_GO", lit "Runtime implementation: absent"]

/-- `HISTORICAL_REQUIRED_TOKENS` -/
def historicalRequiredTokens : List JsString :=
  [lit "PLANNING_ONLY", lit "VALID_BLOCKED", lit "NO_GO"]

/-- `STRONGER_STAGE_FLAGS` -/
def strongerStageFlags : List JsString :=
  [lit "kernelReady", lit "sdkReady", lit "appBuildable", lit "releaseAllowed",
    lit "deployAllowed", lit "productionAllowed", lit "gapClosed"]

/-! ## Patterns -/

/-- `\s*` -/
def anySpaces : Pattern CodeUnit := .star true (.one space)

/-- `\s+` -/
def someSpaces : Pattern CodeUnit := .plus (.one space)

/-- `[ \t]+` -/
def someBlanks : Pattern CodeUnit := .plus (.one blank)

/-- `{0,3}` spaces -/
def shallow : Pattern CodeUnit := .upTo (.one (· == spaceUnit)) 3

/-- `(?:[-*+]|\d+[.)])` -/
def itemMark : Pattern CodeUnit := .alt (oneOf "-*+") (.seq (.plus digit) (oneOf ".)"))

/-- A word, `[-\s]` and a word, under the flag `i`. -/
def hyphenated (first second : String) : Pattern CodeUnit :=
  .all [literalI first, .one fun u => u.isChar '-' || space u, literalI second]

/-- `READINESS_TERM` -/
def readinessTerm : Pattern CodeUnit :=
  .any (hyphenated "runtime" "ready")
    [hyphenated "kernel" "ready", hyphenated "sdk" "ready", literalI "mvp",
      literalI "buildable application", literalI "releasable", literalI "deployable",
      hyphenated "pilot" "approved",
      .seq (hyphenated "production" "read") (.alt (literalI "y") (literalI "iness"))]

/-- `READINESS_ITEM`: `(?:(?:an?|the)\s+)?`, and a term. -/
def readinessItem : Pattern CodeUnit :=
  .seq (.opt (.seq (.alt (.seq (literalI "a") (.opt (literalI "n"))) (literalI "the")) someSpaces))
    readinessTerm

/-- `readinessOccurrences()` -/
def readinessOccurrences : Pattern CodeUnit := .all [wordBoundary, readinessTerm, wordBoundary]

/-- `DENIAL_BOUNDARY` -/
def denialBoundary : Pattern CodeUnit :=
  .ahead true <|
    .any (.seq anySpaces (.alt (oneOf ".,;:!?)]") .finish))
      [.all [someSpaces, .any (literalI "and") [literalI "or", literalI "nor"], someSpaces,
          .any (literalI "not") [literalI "never", literalI "no"], wordBoundary],
        .all [someSpaces, literalI "claim", .opt (literalI "s"), wordBoundary]]

/-- `READINESS_DENIALS` -/
def readinessDenials : List (Pattern CodeUnit) :=
  [.all [wordBoundary,
      .any (literalI "not") [literalI "never", literalI "no", literalI "nor"], someSpaces,
      readinessItem,
      .star true (.all [anySpaces, literal ",", anySpaces, readinessItem]),
      .opt (.all [anySpaces, .opt (literal ","), anySpaces, .alt (literalI "or") (literalI "nor"),
        someSpaces, readinessItem]),
      denialBoundary],
    .all [.alt .start (.seq (oneOf ".;:,") anySpaces), readinessItem, someSpaces,
      .plus (.one wordUnit), someSpaces, .alt (literalI "not") (literalI "never"), wordBoundary],
    .all [readinessItem, .star true (.all [anySpaces, oneOf "/,", anySpaces, readinessItem]),
      anySpaces, literal ":", anySpaces, .alt (literalI "not") (literalI "never"), wordBoundary]]

/-- The spelling of a boolean. -/
def booleanText (value : Bool) : JsString := if value then lit "true" else lit "false"

/-- `flagPattern(flag, value)` -/
def flagPattern (flag : JsString) (value : Bool) : Pattern CodeUnit :=
  .seq wordBoundary <| .seq (.word flag) <| .seq anySpaces <| .seq (literal "=") <|
    .seq anySpaces <| .seq (.word (booleanText value)) wordBoundary

/-- `ATX`: `/^( {0,3})(#{1,6})[ \t]+(.*)$/` -/
def atx : Pattern CodeUnit :=
  .all [.start, .group 1 shallow, .group 2 (.seq (literal "#") (.upTo (literal "#") 5)), someBlanks,
    .group 3 (.star true (.one anyUnit)), .finish]

/-- `SETEXT_UNDERLINE`: `/^ {0,3}(=+|-+)[ \t]*$/` -/
def setextUnderline : Pattern CodeUnit :=
  .all [.start, shallow, .group 1 (.alt (.plus (oneOf "=")) (.plus (oneOf "-"))),
    .star true (.one blank), .finish]

/-- `HTML_HEADING_START`: `/<h([1-6])\b/i` -/
def htmlHeadingStart : Pattern CodeUnit :=
  .all [literalI "<h", .group 1 (oneOf "123456"), wordBoundary]

/-- `HTML_HEADING_TEXT`: `/<h[1-6]\b[^>]*>([^<]+)</i` -/
def htmlHeadingText : Pattern CodeUnit :=
  .all [literalI "<h", oneOf "123456", wordBoundary, .star true (noneOf ">"), literal ">",
    .group 1 (.plus (noneOf "<")), literal "<"]

/-- `BLOCKQUOTE_MARKER`: `/^>[ \t]?/` -/
def blockquoteMarker : Pattern CodeUnit := .all [.start, literal ">", .opt (.one blank)]

/-- `LIST_MARKER_PREFIX`: `/^(?:[-*+]|\d+[.)])[ \t]+/` -/
def listMarkerPrefix : Pattern CodeUnit := .all [.start, itemMark, someBlanks]

/-- `LIST_MARKER`: `/^ {0,3}(?:[-*+]|\d+[.)])\s+/` -/
def listMarker : Pattern CodeUnit := .seq .start (.seq shallow (.seq itemMark someSpaces))

/-- `/(?<=[.!?;])\s+/` -/
def sentenceEnd : Pattern CodeUnit := .seq (.behind true (CodeUnit.oneOf ".!?;")) someSpaces

/-! ## Headings -/

/-- What comes off a line. -/
structure Reduced where
  rest : JsString
  container : Option JsString
  indented : Bool

/-- The loop of `reduceLine`, which takes a unit off in each of its rounds. -/
def reduceFrom : JsString → Reduced → Reduced
  | [], r => r
  | _ :: fuel, r =>
      let trimmed := r.rest.dropWhile blank
      let indented := r.indented || trimmed ≠ r.rest
      -- one marker after the other is taken off, each a character at least: the line is fuel enough
      match (blockquoteMarker.exec trimmed).or (listMarkerPrefix.exec trimmed) with
      | none => { r with rest := trimmed, indented := indented }
      | some marker =>
          reduceFrom fuel
            { rest := trimmed.drop marker.text.length
              container :=
                -- the outermost container gives its name
                r.container.or <| some <|
                  if includes marker.text (lit ">") then lit "blockquoted" else lit "list-contained"
              indented := indented }

/-- `reduceLine(line)` -/
def reduceLine (line : JsString) : Reduced := reduceFrom (line ++ [lineFeed]) ⟨line, none, false⟩

/-- A heading that was found. -/
structure Found where
  depth : ℕ
  form : JsString
  raw : JsString
  /-- The line stays in the body of the section it opens. -/
  keepLine : Bool

/-- A heading that was recorded. -/
structure Heading where
  depth : ℕ
  form : JsString
  title : JsString
  display : JsString

/-- `describeHeading(heading)` -/
def describeHeading (heading : Heading) : JsString :=
  if heading.form = lit "Setext" then
    lit "a Setext H" ++ naturalText heading.depth ++ lit " heading (" ++ heading.display ++ lit ")"
  else
    lit "a depth-" ++ naturalText heading.depth ++ lit " " ++ heading.form ++ lit " heading (" ++
      heading.display ++ lit ")"

/-- What the group 1 captured. -/
def firstGroup (m : Match CodeUnit) : JsString := (m.group 1).getD []

/-- `normalizeHeadingTitle(raw)` -/
def normalizeHeadingTitle (raw : JsString) : JsString :=
  -- a closing sequence, links of three kinds, code spans and emphasis, white space
  let closing : Pattern CodeUnit := .all [someSpaces, .plus (literal "#"), anySpaces, .finish]
  let label : Pattern CodeUnit :=
    .all [.opt (literal "!"), literal "[", .group 1 (.star true (noneOf "]")), literal "]"]
  let inlineLink : Pattern CodeUnit :=
    .all [label, literal "(", .star true (noneOf ")"), literal ")"]
  let referenceLink : Pattern CodeUnit :=
    .all [label, literal "[", .star true (noneOf "]"), literal "]"]
  let text := closing.replaceFirst (fun _ => []) raw
  let text := inlineLink.replaceAll firstGroup text
  let text := referenceLink.replaceAll firstGroup text
  let text := label.replaceAll firstGroup text
  let text := (oneOf "`*_~").replaceAll (fun _ => []) text
  toLowerCase (someSpaces.replaceAll (fun _ => lit " ") (trim text))

/-- The depth a match of `#{1,6}` or `[1-6]` stands for. -/
def digitValue (text : JsString) : ℕ := decimal text

/-- `ATX.exec(line)`, when its text is not blank. -/
def atxOf (line : JsString) : Option (ℕ × JsString) := do
  let m ← atx.exec line
  let raw := (m.group 3).getD []
  if trim raw = [] then none else some (((m.group 2).getD []).length, raw)

/-- `readLineHeading(line)` -/
def readLineHeading (line : JsString) : Option Found :=
  match atxOf line with
  | some (depth, raw) => some ⟨depth, lit "ATX", raw, false⟩
  | none =>
      -- an HTML heading may have text behind it, so its line is kept
      match htmlHeadingStart.exec line with
      | some html =>
          some
            { depth := digitValue (firstGroup html)
              form := lit "HTML"
              raw := (htmlHeadingText.exec line).elim (trim line) firstGroup
              keepLine := true }
      | none =>
          let reduced := reduceLine line
          if reduced.container.isNone && !reduced.indented then none
          else
            (atxOf reduced.rest).map fun p =>
              ⟨p.1, reduced.container.getD (lit "indented ATX"), p.2, false⟩

/-- A heading underlined on the following line, through the containers of both. -/
def setextHeading (line underline : JsString) : Option Found :=
  -- an underline needs a line of text above it, and a fence is none
  if trim line = [] ∨ isFence underline then none
  else
    let text := reduceLine line
    let rule := reduceLine underline
    let textIsHeadingLike := decide (trim text.rest ≠ []) && !setextUnderline.test text.rest
    let prefixAgrees :=
      text.container.isNone || rule.container.isSome || underline.head?.any space
    if textIsHeadingLike && setextUnderline.test rule.rest && prefixAgrees then
      let containerForm :=
        text.container.or (if text.indented then some (lit "indented") else none)
      some
        { depth := if (lit "=").isPrefixOf (trim rule.rest) then 1 else 2
          form := containerForm.elim (lit "Setext") (· ++ lit " Setext")
          raw := text.rest
          keepLine := false }
    else none

/-- A segment: what stands under a heading. -/
structure Segment where
  title : Option JsString
  label : JsString
  lines : List JsString

/-- `segment.body` -/
def Segment.body (s : Segment) : JsString := joinLines s.lines

/-- What `parseReadme` keeps: the segments before the last, and the last. -/
structure Parsing where
  fenced : Bool
  headings : List Heading
  segments : List Segment
  current : Segment

/-- `segments.at(-1).lines.push(line)` -/
def Parsing.push (p : Parsing) (line : JsString) : Parsing :=
  { p with current := { p.current with lines := p.current.lines ++ [line] } }

/-- `record(found)` -/
def Parsing.record (p : Parsing) (found : Found) : Parsing :=
  let display := trim found.raw
  let title := normalizeHeadingTitle found.raw
  { p with
    headings := p.headings ++ [⟨found.depth, found.form, title, display⟩]
    segments := p.segments ++ [p.current]
    current :=
      { title := some title
        label :=
          if found.form = lit "ATX" then
            lit "`" ++ (List.replicate found.depth (lit "#")).flatten ++ lit " " ++ display ++ lit "`"
          else
            lit "the " ++ found.form ++ lit " H" ++ naturalText found.depth ++ lit " heading \"" ++
              display ++ lit "\""
        lines := [] } }

/-- The loop of `parseReadme`. -/
def parseLines : Parsing → List JsString → Parsing
  | p, [] => p
  | p, line :: rest =>
      -- any fence flips the flag, whatever it is made of and however long it is
      if isFence line then parseLines { p.push line with fenced := !p.fenced } rest
      else if p.fenced then parseLines (p.push line) rest
      else match readLineHeading line with
        | some found =>
            let p := p.record found
            parseLines (if found.keepLine then p.push line else p) rest
        | none =>
            match rest with
            | [] => p.push line
            | underline :: after =>
                -- a heading of two lines: the second is consumed with the first
                match setextHeading line underline with
                | some found => parseLines (p.record found) after
                | none => parseLines (p.push line) (underline :: after)

/-- `parseReadme(markdown)`, the headings and the segments. -/
def parseReadme (markdown : JsString) : List Heading × List Segment :=
  let p := parseLines ⟨false, [], [], ⟨none, lit "the text before the first heading", []⟩⟩
    (linesOf markdown)
  (p.headings, p.segments ++ [p.current])

/-! ## Semantic units -/

/-- `sentences(text)` -/
def sentences (text : JsString) : List JsString :=
  ((sentenceEnd.split text).map trim).filter (· ≠ [])

/-- A line of a block: a list item begins a chunk. -/
def addLine (chunks : List (List JsString)) (line : JsString) : List (List JsString) :=
  if listMarker.test line then chunks ++ [[listMarker.replaceFirst (fun _ => []) line]]
  else match chunks.getLast? with
    | some chunk => chunks.dropLast ++ [chunk ++ [trim line]]
    | none => [[trim line]]

/-- The text of a chunk on one line. -/
def chunkText (chunk : List JsString) : JsString :=
  trim (someSpaces.replaceAll (fun _ => lit " ") ((lit " ").intercalate chunk))

/-- The units of a block. -/
def blockUnits (block : List JsString) : List JsString :=
  (block.foldl addLine []).flatMap fun chunk =>
    if chunkText chunk = [] then [] else sentences (chunkText chunk)

/-- What `semanticUnits` keeps. -/
structure Collecting where
  fenced : Bool
  block : List JsString
  units : List JsString

/-- `flush()` -/
def Collecting.flush (c : Collecting) : Collecting :=
  { c with block := [], units := c.units ++ blockUnits c.block }

/-- One line. -/
def collect (c : Collecting) (line : JsString) : Collecting :=
  if isFence line then { c.flush with fenced := !c.fenced }
  else if c.fenced then c
  else if trim line = [] then c.flush
  else { c with block := c.block ++ [line] }

/-- `semanticUnits(body)` -/
def semanticUnits (body : JsString) : List JsString :=
  ((linesOf body).foldl collect ⟨false, [], []⟩).flush.units

/-- `undeniedReadinessTerms(text)` -/
def undeniedReadinessTerms (text : JsString) : List JsString :=
  let covered := readinessDenials.flatMap fun denial =>
    (denial.matchAll text).map fun m => (m.index, m.stop)
  let asserted := (readinessOccurrences.matchAll text).filter fun m =>
    !covered.any fun span => decide (span.1 ≤ m.index ∧ m.stop ≤ span.2)
  Versioning.dedupe (asserted.map fun m => toLowerCase m.text)

/-! ## The contract -/

/-- `isHistoricalHeading(title)` -/
def isHistoricalHeading (title : Option JsString) : Bool :=
  title.any fun title =>
    [literalI "historical", literalI "non-effective", literalI "bootstrap"].all (·.test title)

/-- 1. Exactly one heading claims to be the current status, and it is the canonical ATX H2. -/
def headingViolations (headings : List Heading) : List JsString :=
  let currentHeadings := headings.filter (·.title = currentStatusTitle)
  (currentHeadings.flatMap fun heading =>
    findingIf (heading.depth ≠ currentStatusDepth ∨ heading.form ≠ lit "ATX")
      (describeHeading heading ++ lit " is titled \"" ++ currentStatusTitle ++
        lit "\"; only the single canonical `## Current status` ATX H2 may carry that title")) ++
  findingIf (currentHeadings.length ≠ 1)
    (lit "README must have exactly one `## Current status` heading, found " ++
      naturalText currentHeadings.length)

/-- 2. to 4. What the current block states. -/
def currentBlockViolations (currentBlock : JsString) : List JsString :=
  (currentStatusRequired.flatMap fun token =>
    findingIf (¬includes currentBlock token) (lit "`## Current status` must state " ++ token)) ++
  -- a flag has to be there with its value, and must not be there with the other
  (currentStatusFlags.flatMap fun p =>
    let expected := p.1 ++ lit "=" ++ booleanText p.2
    findingIf (¬(flagPattern p.1 p.2).test currentBlock)
      (lit "`## Current status` must state " ++ expected) ++
    findingIf ((flagPattern p.1 (!p.2)).test currentBlock)
      (lit "`## Current status` contradicts itself: it carries " ++ p.1 ++ lit "=" ++
        booleanText (!p.2) ++ lit " beside " ++ expected)) ++
  historicalOnlyTokens.flatMap fun token =>
    findingIf (includes currentBlock token)
      (lit "`## Current status` presents the historical token " ++ describe token ++
        lit " as current status")

/-- The current segment. -/
def currentViolations (segments : List Segment) : List JsString :=
  match segments.filter (·.title = some currentStatusTitle) with
  | [current] => currentBlockViolations current.body
  | currentSegments =>
      [lit "README must have exactly one `## Current status` H2 section, found " ++
        naturalText currentSegments.length]

/-- 5. A named historical section carries the preserved tokens. -/
def historyViolations (segments : List Segment) : List JsString :=
  let historicalSegments := segments.filter fun segment =>
    isHistoricalHeading segment.title && segment.title != some currentStatusTitle
  if historicalSegments.length = 0 then
    [lit "README must name a historical, non-effective bootstrap H2 section (its heading must " ++
      lit "match all of: historical, non-effective, bootstrap)"]
  else
    -- each token in any of the sections, not all of them in one
    historicalRequiredTokens.flatMap fun token =>
      findingIf (¬historicalSegments.any fun segment => includes segment.body token)
        (lit "the historical, non-effective bootstrap section must preserve " ++ token ++
          lit " as dated history")

/-- 6. No bootstrap-era token sits anywhere else. -/
def placementViolations (segments : List Segment) : List JsString :=
  historicalOnlyTokens.flatMap fun token =>
    segments.flatMap fun segment =>
      findingIf (includes segment.body token ∧ ¬isHistoricalHeading segment.title)
        (segment.label ++ lit " carries the historical token " ++ describe token ++
          lit " outside a historical, non-effective section")

/-- `quote(unit)` -/
def quoteOf (unit : JsString) : JsString :=
  describe (if 120 < unit.length then unit.take 117 ++ lit "..." else unit)

/-- 7. A unit asserts that a closed stage is open. -/
def stageViolations (unit : JsString) : List JsString :=
  strongerStageFlags.flatMap fun flag =>
    findingIf ((flagPattern flag true).test unit)
      (lit "README asserts " ++ flag ++ lit "=true; that stage is closed and stays false: " ++
        quoteOf unit)

/-- A unit asserts a readiness term. -/
def readinessViolations (unit : JsString) : List JsString :=
  (undeniedReadinessTerms unit).map fun term =>
    lit "README claims the repository is " ++ term ++ lit " without denying it: " ++ quoteOf unit

/-- `readmeContractViolations(markdown)` -/
def readmeContractViolations (markdown : JsString) : List JsString :=
  let (headings, segments) := parseReadme markdown
  headingViolations headings ++ currentViolations segments ++ historyViolations segments ++
    placementViolations segments ++
    (semanticUnits markdown).flatMap fun unit => stageViolations unit ++ readinessViolations unit

end MetaframerKernel.RepositoryBoundary
