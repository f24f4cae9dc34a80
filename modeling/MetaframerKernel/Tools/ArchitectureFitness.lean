import MetaframerKernel.Js.RegExpLanguage
import MetaframerKernel.Tools.TextPatterns

/-!
# Import extraction of the architecture check

The check of the layers reads the modules a module imports from its text. A scan marks the letters
of comments, strings and templates, and patterns find the declarations; a match counts when it
begins at a letter that is not marked.

## Main definitions

* `scanCode`, `scanTemplate`, `codeMask`: the marks;
* `staticFromRe`, `exportFromRe`, `sideEffectRe`, `dynamicRe`: the patterns;
* `extractLocalImportSpecifiers`: the specifiers of the modules nearby, or a refusal.
-/

namespace MetaframerKernel.ArchitectureFitness

open Js RegExp Patterns

/-! ## The scan -/

/-- `/` -/
def slash : CodeUnit := 0x2F

/-- `*` -/
def star : CodeUnit := 0x2A

/-- `"` -/
def doubleQuote : CodeUnit := 0x22

/-- `'` -/
def singleQuote : CodeUnit := 0x27

/-- A back-tick. -/
def backTick : CodeUnit := 0x60

/-- `\` -/
def backslash : CodeUnit := 0x5C

/-- `$` -/
def dollar : CodeUnit := 0x24

/-- An opening brace. -/
def openBrace : CodeUnit := 0x7B

/-- A closing brace. -/
def closeBrace : CodeUnit := 0x7D

/-- `["']` -/
def isQuote (u : CodeUnit) : Bool := u == doubleQuote || u == singleQuote

/-- `[{}]` -/
def isBrace (u : CodeUnit) : Bool := u == openBrace || u == closeBrace

/-- What a scan did: the marks of the letters it read, and the text it did not read. -/
structure Scan where
  mask : List Bool
  rest : JsString
deriving DecidableEq

/-- A scan behind letters that have their marks. -/
def Scan.after (marks : List Bool) (scan : Scan) : Scan := ⟨marks ++ scan.mask, scan.rest⟩

@[simp] theorem Scan.after_after (first second : List Bool) (scan : Scan) :
    (scan.after second).after first = scan.after (first ++ second) := by
  simp [after]

@[simp] theorem Scan.after_nil (scan : Scan) : scan.after [] = scan := rfl

/-- A line comment, up to the line feed. -/
def scanLine : JsString → Scan
  | [] => ⟨[], []⟩
  | u :: rest => if u = lineFeed then ⟨[], u :: rest⟩ else (scanLine rest).after [true]

/-- A block comment behind its first two letters. -/
def scanBlock : JsString → Scan
  | [] => ⟨[], []⟩
  | u :: rest =>
      if u = star ∧ rest.head? = some slash then ⟨[true, true], rest.tail⟩
      else (scanBlock rest).after [true]

/-- A string behind its opening quote. -/
def scanString (quote : CodeUnit) : JsString → Scan
  | [] => ⟨[], []⟩
  | [_] => ⟨[true], []⟩
  | u :: v :: rest =>
      if u = quote then ⟨[true], v :: rest⟩
      else if u = backslash then (scanString quote rest).after [true, true]
      else (scanString quote (v :: rest)).after [true]

mutual

/-- `scanCode(text, i, mask, terminator)`, with `"}"` for the terminator in a hole. The fuel is more
than the letters of the text, since each call reads one. -/
def scanCode (hole : Bool) : ℕ → ℕ → JsString → Scan
  | 0, _, text => ⟨[], text⟩
  | _ + 1, _, [] => ⟨[], []⟩
  | fuel + 1, depth, ch :: text =>
      if ch = slash ∧ text.head? = some slash then
        let comment := scanLine (ch :: text)
        (scanCode hole fuel depth comment.rest).after comment.mask
      else if ch = slash ∧ text.head? = some star then
        let comment := scanBlock text.tail
        (scanCode hole fuel depth comment.rest).after (true :: true :: comment.mask)
      else if isQuote ch = true then
        let string := scanString ch text
        (scanCode hole fuel depth string.rest).after (true :: string.mask)
      -- a template holds code of its own, so the two scans call each other
      else if ch = backTick then
        let template := scanTemplate fuel text
        (scanCode hole fuel depth template.rest).after (true :: template.mask)
      else if hole = true ∧ ch = openBrace then (scanCode hole fuel (depth + 1) text).after [false]
      else if hole = true ∧ ch = closeBrace then
        match depth with
        -- the brace of the hole itself: the template goes on behind it
        | 0 => ⟨[false], text⟩
        | depth + 1 => (scanCode hole fuel depth text).after [false]
      else (scanCode hole fuel depth text).after [false]

/-- `scanTemplate(text, i, mask)` -/
def scanTemplate : ℕ → JsString → Scan
  | 0, text => ⟨[], text⟩
  | _ + 1, [] => ⟨[], []⟩
  | fuel + 1, u :: text =>
      if u = backTick then ⟨[true], text⟩
      else if u = backslash then
        match text with
        | [] => ⟨[true], []⟩
        -- an escaped character is passed over with its backslash
        | _ :: rest => (scanTemplate fuel rest).after [true, true]
      else if u = dollar ∧ text.head? = some openBrace then
        -- `${` and its brace belong to the template, what is between them to the code
        let code := scanCode true fuel 0 text.tail
        (scanTemplate fuel code.rest).after (true :: true :: code.mask)
      else (scanTemplate fuel text).after [true]

end

/-- `codeMask(text)` -/
def codeMask (text : JsString) : List Bool := (scanCode false (text.length + 1) 0 text).mask

/-! ## The patterns -/

/-- `[\w$]` -/
def nameUnit (u : CodeUnit) : Bool := wordUnit u || u == dollar

/-- `\s*` -/
def spaces : Pattern CodeUnit := .star true (.one space)

/-- `\s+` -/
def spaces1 : Pattern CodeUnit := .plus (.one space)

/-- `[\w$]+` -/
def name : Pattern CodeUnit := .plus (.one nameUnit)

/-- `\{[^{}]*\}` -/
def braced : Pattern CodeUnit :=
  .seq (.one (· == openBrace)) (.seq (.star true (.one fun u => !isBrace u))
    (.one (· == closeBrace)))

/-- `\s+as\s+[\w$]+` -/
def renamed : Pattern CodeUnit := .seq spaces1 (.seq (literal "as") (.seq spaces1 name))

/-- `\bkeyword`, and behind a head `(["'])([^"']+)\1`. -/
def quotedAfter (keyword : String) (head : Pattern CodeUnit) : Pattern CodeUnit :=
  .seq wordBoundary <| .seq (literal keyword) <| .seq head <|
    .seq (.group 1 (.one isQuote)) <|
      .seq (.group 2 (.plus (.one fun u => !isQuote u))) (.back 1)

/-- What stands between `import` and the quote in `STATIC_FROM_RE`. -/
def staticFromHead : Pattern CodeUnit :=
  .seq spaces1 <|
    .seq (.opt (.seq name (.seq spaces (.seq (.opt (literal ",")) spaces)))) <|
      .seq (.opt (.alt (.seq (literal "*") renamed) braced)) <|
        .seq spaces (.seq (literal "from") spaces1)

/-- What stands between `export` and the quote in `EXPORT_FROM_RE`. -/
def exportFromHead : Pattern CodeUnit :=
  .seq spaces1 <|
    .seq (.alt (.seq (literal "*") (.opt renamed)) braced) <|
      .seq spaces1 (.seq (literal "from") spaces1)

/-- `STATIC_FROM_RE` -/
def staticFromRe : Pattern CodeUnit := quotedAfter "import" staticFromHead

/-- `SIDE_EFFECT_RE` -/
def sideEffectRe : Pattern CodeUnit := quotedAfter "import" spaces1

/-- `EXPORT_FROM_RE` -/
def exportFromRe : Pattern CodeUnit := quotedAfter "export" exportFromHead

/-- `DYNAMIC_RE`: `/\bimport\s*\(\s*([^)]*?)\s*\)/g` -/
def dynamicRe : Pattern CodeUnit :=
  .seq wordBoundary <| .seq (literal "import") <| .seq spaces <| .seq (literal "(") <|
    .seq spaces <| .seq (.group 1 (.star false (noneOf ")"))) <| .seq spaces (literal ")")

/-- `LITERAL_ARG_RE`: `/^(["'])((?:(?!\1)[^\\]|\\.)*)\1$/` -/
def literalArgRe : Pattern CodeUnit :=
  .seq .start <| .seq (.group 1 (.one isQuote)) <|
    .seq (.group 2 (.star true
      (.alt (.seq (.ahead false (.back 1)) (.one (· != backslash)))
        (.seq (.one (· == backslash)) (.one anyUnit))))) <|
      .seq (.back 1) .finish

/-! ## The specifiers -/

/-- A match begins in code. -/
def isCode (mask : List Bool) (m : Match CodeUnit) : Bool := mask[m.index]? == some false

/-- A specifier of a module nearby: it begins with a dot. -/
def isLocal (specifier : JsString) : Bool := (lit ".").isPrefixOf specifier

/-- The specifier of a dynamic import, which must be a literal. -/
def literalArgument (m : Match CodeUnit) : Except JsString JsString :=
  match literalArgRe.exec (trim ((m.group 1).getD [])) with
  | none => .error (lit "non-literal-dynamic-import")
  | some literal => .ok ((literal.group 2).getD [])

/-- The specifiers that a pattern finds in code. -/
def specifiersOf (mask : List Bool) (text : JsString) (re : Pattern CodeUnit) : List JsString :=
  ((re.matchAll text).filter (isCode mask)).map fun m => (m.group 2).getD []

/-- `extractLocalImportSpecifiers(text)`, with the reason when it is not ok. -/
def extractLocalImportSpecifiers (text : JsString) : Except JsString (List JsString) := do
  let mask := codeMask text
  let dynamic ← ((dynamicRe.matchAll text).filter (isCode mask)).mapM literalArgument
  let declared := [staticFromRe, exportFromRe, sideEffectRe].flatMap (specifiersOf mask text)
  return ((dynamic ++ declared).filter isLocal).eraseDups

end MetaframerKernel.ArchitectureFitness
