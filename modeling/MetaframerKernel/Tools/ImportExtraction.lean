import MetaframerKernel.Tools.ModuleText

/-!
# What the import extraction finds

The declarations of a module that name another one, in any spelling the language has for them, and
the spelling in which the patterns of the check find them. A declaration is found when the scan
reads the text up to it, it is spelled so, and each earlier match of its pattern that reaches over
it starts in code, with neither quotes nor braces up to the declaration.

## Main definitions

* `Declaration`: a static import or an export from a module, with what stands between its words;
* `Declaration.Legible`: the spelling of the patterns;
* `Unhidden`: what may stand before a declaration;
* `Finds`: the call answers with a specifier, or is refused.

## Main results

* `exists_matchAt_quotedAfter`: a pattern takes the specifier behind a head of its language;
* `finds_of_legible`: a legible declaration behind a legible text is found.
-/

namespace MetaframerKernel.ArchitectureFitness

open Js RegExp Patterns
open RegExp.Pattern (Reads Reaches wordsOf someOf letterOf)

/-! ## Declarations -/

/-- Names between braces, or `* as name`. -/
inductive Binding where
  | names (body : JsString)
  | everythingAs (beforeAs afterAs name : JsString)

/-- What an import binds. -/
inductive ImportClause where
  | binding (b : Binding)
  | default (name : JsString)
  | both (name beforeComma afterComma : JsString) (b : Binding)

/-- What an export passes on. -/
inductive ExportClause where
  | everything
  | binding (b : Binding)

/-- The words of a declaration before its specifier, with the white space and the comments between
them. -/
inductive Head where
  | importOnly (gap : JsString)
  | importFrom (gap : JsString) (clause : ImportClause) (beforeFrom afterFrom : JsString)
  | exportFrom (gap : JsString) (clause : ExportClause) (beforeFrom afterFrom : JsString)

/-- A declaration that names a module. -/
structure Declaration where
  head : Head
  quote : CodeUnit
  /-- The letters between the quotes -/
  spelling : JsString
  /-- The string they spell -/
  specifier : JsString

def Binding.text : Binding → JsString
  | names body => openBrace :: (body ++ [closeBrace])
  | everythingAs beforeAs afterAs name => lit "*" ++ (beforeAs ++ (lit "as" ++ (afterAs ++ name)))

def ImportClause.text : ImportClause → JsString
  | binding b => b.text
  | default name => name
  | both name beforeComma afterComma b =>
      name ++ (beforeComma ++ (lit "," ++ (afterComma ++ b.text)))

def ExportClause.text : ExportClause → JsString
  | everything => lit "*"
  | binding b => b.text

/-- The text behind the keyword. -/
def Head.text : Head → JsString
  | importOnly gap => gap
  | importFrom gap clause beforeFrom afterFrom =>
      gap ++ (clause.text ++ (beforeFrom ++ (lit "from" ++ afterFrom)))
  | exportFrom gap clause beforeFrom afterFrom =>
      gap ++ (clause.text ++ (beforeFrom ++ (lit "from" ++ afterFrom)))

def Head.keyword : Head → String
  | importOnly .. => "import"
  | importFrom .. => "import"
  | exportFrom .. => "export"

/-- The pattern that is to find the declaration. -/
def Head.re : Head → Pattern CodeUnit
  | importOnly .. => sideEffectRe
  | importFrom .. => staticFromRe
  | exportFrom .. => exportFromRe

def Declaration.text (d : Declaration) : JsString :=
  lit d.head.keyword ++ (d.head.text ++ d.quote :: (d.spelling ++ [d.quote]))

/-! ## The spelling of the patterns -/

/-- Names without comments among them that have braces, and names of the letters of `[\w$]` with
white space around `as`. -/
def Binding.Legible : Binding → Prop
  | names body => body ∈ wordsOf fun u => !isBrace u
  | everythingAs beforeAs afterAs name =>
      beforeAs ∈ someOf space ∧ afterAs ∈ someOf space ∧ name ∈ someOf nameUnit

def ImportClause.Legible : ImportClause → Prop
  | binding b => b.Legible
  | default name => name ∈ someOf nameUnit
  | both name beforeComma afterComma b =>
      name ∈ someOf nameUnit ∧ beforeComma ∈ wordsOf space ∧ afterComma ∈ wordsOf space ∧ b.Legible

def ExportClause.Legible : ExportClause → Prop
  | everything => True
  | binding b => b.Legible

/-- No comments between the words, and white space behind each of them, for an export in front of
`from` too. -/
def Head.Legible : Head → Prop
  | importOnly gap => gap ∈ someOf space
  | importFrom gap clause beforeFrom afterFrom =>
      gap ∈ someOf space ∧ clause.Legible ∧ beforeFrom ∈ wordsOf space ∧ afterFrom ∈ someOf space
  | exportFrom gap clause beforeFrom afterFrom =>
      gap ∈ someOf space ∧ clause.Legible ∧ beforeFrom ∈ someOf space ∧ afterFrom ∈ someOf space

/-- A legible head, and a specifier spelled without quotes and escapes. -/
structure Declaration.Legible (d : Declaration) : Prop where
  head : d.head.Legible
  quote : isQuote d.quote = true
  bare : d.spelling ∈ wordsOf fun u => !isQuote u
  plain : d.spelling = d.specifier

/-! ## The languages of the heads -/

/-- The words of `renamed` -/
def renamedWords : Language CodeUnit :=
  someOf space * ({lit "as"} * (someOf space * someOf nameUnit))

/-- The words of `braced` -/
def bracedWords : Language CodeUnit :=
  letterOf (· == openBrace) * (wordsOf (fun u => !isBrace u) * letterOf (· == closeBrace))

/-- The words of `staticFromHead` -/
def staticFromWords : Language CodeUnit :=
  someOf space *
    ((someOf nameUnit * (wordsOf space * (({lit ","} + 1) * wordsOf space)) + 1) *
      (({lit "*"} * renamedWords + bracedWords + 1) *
        (wordsOf space * ({lit "from"} * someOf space))))

/-- The words of `exportFromHead` -/
def exportFromWords : Language CodeUnit :=
  someOf space *
    (({lit "*"} * (renamedWords + 1) + bracedWords) *
      (someOf space * ({lit "from"} * someOf space)))

/-- A literal reads its text. -/
theorem reads_literal (w : String) : Reads (literal w) {lit w} := Pattern.reads_word _

/-- `\s*` reads the words of white space. -/
theorem reads_spaces : Reads spaces (wordsOf space) := Pattern.reads_star_one true

/-- `\s+` reads the words of white space that are not empty. -/
theorem reads_spaces1 : Reads spaces1 (someOf space) := Pattern.reads_plus_one

/-- `[\w$]+` reads the names. -/
theorem reads_name : Reads name (someOf nameUnit) := Pattern.reads_plus_one

/-- `(?:\s+as\s+[\w$]+)?` reads the renamings, and nothing. -/
theorem reads_renamed : Reads renamed renamedWords :=
  reads_spaces1.seq ((reads_literal "as").seq (reads_spaces1.seq reads_name))

/-- A pair of braces reads what has no closing brace between them. -/
theorem reads_braced : Reads braced bracedWords :=
  Pattern.reads_one.seq ((Pattern.reads_star_one true).seq Pattern.reads_one)

/-- The pattern of a static import reads its clauses. -/
theorem reads_staticFromHead : Reads staticFromHead staticFromWords :=
  reads_spaces1.seq <|
    (reads_name.seq (reads_spaces.seq ((reads_literal ",").opt.seq reads_spaces))).opt.seq <|
      (((reads_literal "*").seq reads_renamed).alt reads_braced).opt.seq <|
        reads_spaces.seq ((reads_literal "from").seq reads_spaces1)

/-- The pattern of an export reads its clauses. -/
theorem reads_exportFromHead : Reads exportFromHead exportFromWords :=
  reads_spaces1.seq <|
    (((reads_literal "*").seq reads_renamed.opt).alt reads_braced).seq <|
      reads_spaces1.seq ((reads_literal "from").seq reads_spaces1)

/-! ## Heads and quotes -/

/-- A letter that is no quote and no brace. -/
def bareUnit (u : CodeUnit) : Bool := !isQuote u && !isBrace u

/-- A text without quotes and braces, or two of them around a pair of braces. -/
inductive IsHead : JsString → Prop where
  | bare {w : JsString} (hw : w ∈ wordsOf bareUnit) : IsHead w
  | braced {v body w : JsString} (hv : v ∈ wordsOf bareUnit)
      (hbody : body ∈ wordsOf fun u => !isBrace u) (hw : w ∈ wordsOf bareUnit) :
      IsHead (v ++ openBrace :: (body ++ closeBrace :: w))

/-- A class without quotes and braces. -/
theorem bareUnit_of_class {p : CodeUnit → Bool} {u : CodeUnit}
    (hp : [doubleQuote, singleQuote, openBrace, closeBrace].any p = false) (h : p u = true) :
    bareUnit u = true := by
  by_contra hbare
  have hmem : u ∈ [doubleQuote, singleQuote, openBrace, closeBrace] := by
    simp only [bareUnit, isQuote, isBrace, Bool.and_eq_true, Bool.not_eq_true',
      Bool.or_eq_false_iff,
      beq_eq_false_iff_ne] at hbare
    simp only [List.mem_cons, List.not_mem_nil, or_false]
    tauto
  exact absurd h (List.any_eq_false.mp hp u hmem)

/-- The empty text is bare. -/
theorem bare_nil : [] ∈ wordsOf bareUnit := nofun

/-- Bare texts stay so one after the other. -/
theorem bare_append {v w : JsString} (hv : v ∈ wordsOf bareUnit) (hw : w ∈ wordsOf bareUnit) :
    v ++ w ∈ wordsOf bareUnit := by
  intro u hu
  rcases List.mem_append.mp hu with hu | hu
  · exact hv u hu
  · exact hw u hu

/-- White space is bare. -/
theorem bare_of_spaces {w : JsString} (h : w ∈ wordsOf space) : w ∈ wordsOf bareUnit :=
  fun u hu => bareUnit_of_class (by decide) (h u hu)

/-- White space that is not empty is bare. -/
theorem bare_of_spaces1 {w : JsString} (h : w ∈ someOf space) : w ∈ wordsOf bareUnit :=
  bare_of_spaces h.2

/-- A name is bare. -/
theorem bare_of_name {w : JsString} (h : w ∈ someOf nameUnit) : w ∈ wordsOf bareUnit :=
  fun u hu => bareUnit_of_class (by decide) (h.2 u hu)

/-- A renaming is bare. -/
theorem bare_of_renamed {w : JsString} (h : w ∈ renamedWords) : w ∈ wordsOf bareUnit := by
  obtain ⟨before, hbefore, _, ⟨_, rfl, _, ⟨behind, hbehind, newName, hname, rfl⟩, rfl⟩, rfl⟩ := h
  have hword : lit "as" ∈ wordsOf bareUnit := List.all_eq_true.mp (by decide)
  exact bare_append (bare_of_spaces1 hbefore) <| bare_append hword <|
    bare_append (bare_of_spaces1 hbehind) (bare_of_name hname)

/-- A head may have bare text before it. -/
theorem IsHead.prepend {v w : JsString} (hv : v ∈ wordsOf bareUnit) (hw : IsHead w) :
    IsHead (v ++ w) := by
  cases hw with
  | bare hw => exact .bare (bare_append hv hw)
  | braced hu hbody hw =>
    rw [← List.append_assoc]
    exact .braced (bare_append hv hu) hbody hw

/-- A head may have bare text after it. -/
theorem IsHead.append {v w : JsString} (hv : IsHead v) (hw : w ∈ wordsOf bareUnit) :
    IsHead (v ++ w) := by
  cases hv with
  | bare hv => exact .bare (bare_append hv hw)
  | braced hu hbody hv =>
    rw [List.append_assoc, List.cons_append, List.append_assoc, List.cons_append]
    exact .braced hu hbody (bare_append hv hw)

/-- A list in braces is a head. -/
theorem isHead_of_braced {w : JsString} (h : w ∈ bracedWords) : IsHead w := by
  obtain ⟨_, ⟨a, rfl, ha⟩, _, ⟨body, hbody, _, ⟨b, rfl, hb⟩, rfl⟩, rfl⟩ := h
  obtain rfl := eq_of_beq ha
  obtain rfl := eq_of_beq hb
  exact .braced bare_nil hbody bare_nil

/-- `from` and the white space after it are bare. -/
theorem bare_from {w : JsString} (h : w ∈ ({lit "from"} * someOf space : Language CodeUnit)) :
    w ∈ wordsOf bareUnit := by
  obtain ⟨_, rfl, gap, hgap, rfl⟩ := h
  have hword : lit "from" ∈ wordsOf bareUnit := List.all_eq_true.mp (by decide)
  exact bare_append hword (bare_of_spaces1 hgap)

/-- The clause of a static import is a head. -/
theorem isHead_of_staticFrom {w : JsString} (h : w ∈ staticFromWords) : IsHead w := by
  obtain ⟨gap, hgap, _, ⟨bound, hbound, _, ⟨others, hothers, _, ⟨before, hbefore, last, hlast, rfl⟩,
    rfl⟩, rfl⟩, rfl⟩ := h
  -- what the group of the default name takes, and then that of the other names
  have hbare : bound ∈ wordsOf bareUnit := by
    rcases hbound with ⟨own, hown, _, ⟨s, hs, _, ⟨comma, hcomma, t, ht, rfl⟩, rfl⟩, rfl⟩ | rfl
    · have hmark : comma ∈ wordsOf bareUnit := by
        rcases hcomma with rfl | rfl
        · exact List.all_eq_true.mp (by decide)
        · exact bare_nil
      exact bare_append (bare_of_name hown) <| bare_append (bare_of_spaces hs) <|
        bare_append hmark (bare_of_spaces ht)
    · exact bare_nil
  have hhead : IsHead others := by
    rcases hothers with (⟨_, rfl, new, hnew, rfl⟩ | hbraced) | rfl
    · have hmark : lit "*" ∈ wordsOf bareUnit := List.all_eq_true.mp (by decide)
      exact .bare (bare_append hmark (bare_of_renamed hnew))
    · exact isHead_of_braced hbraced
    · exact .bare bare_nil
  have hend : before ++ last ∈ wordsOf bareUnit := bare_append (bare_of_spaces hbefore)
    (bare_from hlast)
  exact .prepend (bare_of_spaces1 hgap) (.prepend hbare (hhead.append hend))

/-- The clause of an export is a head. -/
theorem isHead_of_exportFrom {w : JsString} (h : w ∈ exportFromWords) : IsHead w := by
  obtain ⟨gap, hgap, _, ⟨passed, hpassed, _, ⟨before, hbefore, last, hlast, rfl⟩, rfl⟩, rfl⟩ := h
  have hhead : IsHead passed := by
    rcases hpassed with ⟨_, rfl, new, hnew, rfl⟩ | hbraced
    · have hmark : lit "*" ∈ wordsOf bareUnit := List.all_eq_true.mp (by decide)
      have hbare : new ∈ wordsOf bareUnit := by
        rcases hnew with hnew | rfl
        · exact bare_of_renamed hnew
        · exact bare_nil
      exact .bare (bare_append hmark hbare)
    · exact isHead_of_braced hbraced
  have hend : before ++ last ∈ wordsOf bareUnit :=
    bare_append (bare_of_spaces1 hbefore) (bare_from hlast)
  exact .prepend (bare_of_spaces1 hgap) (hhead.append hend)

/-- A text is cut in one way at its first letter outside a class. -/
theorem eq_of_append_cons {p : CodeUnit → Bool} {v w s t : JsString} {a b : CodeUnit}
    (hv : v ∈ wordsOf p) (hw : w ∈ wordsOf p) (ha : p a = false) (hb : p b = false)
    (h : v ++ a :: s = w ++ b :: t) : v = w ∧ a = b ∧ s = t := by
  induction v generalizing w with
  | nil =>
    cases w with
    | nil => exact ⟨rfl, List.cons.inj h⟩
    | cons c w =>
      obtain rfl : a = c := (List.cons.inj h).1
      rw [hw a List.mem_cons_self] at ha
      cases ha
  | cons c v ih =>
    cases w with
    | nil =>
      obtain rfl : c = b := (List.cons.inj h).1
      rw [hv c List.mem_cons_self] at hb
      cases hb
    | cons d w =>
      obtain ⟨rfl, htail⟩ := List.cons.inj h
      obtain ⟨rfl, hrest⟩ := ih (fun u hu => hv u (List.mem_cons_of_mem c hu))
        (fun u hu => hw u (List.mem_cons_of_mem c hu)) htail
      exact ⟨rfl, hrest⟩

/-- A head ends at one quote only. -/
theorem IsHead.unique {v w s t : JsString} {a b : CodeUnit} (hv : IsHead v) (hw : IsHead w)
    (ha : isQuote a = true) (hb : isQuote b = true) (h : v ++ a :: s = w ++ b :: t) :
    a = b ∧ s = t := by
  have hbare {q : CodeUnit} (hq : isQuote q = true) : bareUnit q = false := by
    rw [bareUnit, hq]
    rfl
  have hopen : bareUnit openBrace = false := by decide
  have hclose : (fun u => !isBrace u) closeBrace = false := by decide
  cases hv with
  | bare hv =>
    cases hw with
    | bare hw => exact (eq_of_append_cons hv hw (hbare ha) (hbare hb) h).2
    | braced hw _ _ =>
      simp only [List.append_assoc, List.cons_append] at h
      obtain ⟨-, rfl, -⟩ := eq_of_append_cons hv hw (hbare ha) hopen h
      cases ha
  | braced hv hbody hlast =>
    cases hw with
    | bare hw =>
      simp only [List.append_assoc, List.cons_append] at h
      obtain ⟨-, rfl, -⟩ := eq_of_append_cons hv hw hopen (hbare hb) h
      cases hb
    | braced hw hbody' hlast' =>
      -- the heads agree up to the brace, up to the brace that closes it, and up to the quote
      simp only [List.append_assoc, List.cons_append] at h
      obtain ⟨-, -, hinner⟩ := eq_of_append_cons hv hw hopen hopen h
      obtain ⟨-, -, houter⟩ := eq_of_append_cons hbody hbody' hclose hclose hinner
      exact (eq_of_append_cons hlast hlast' (hbare ha) (hbare hb) houter).2

/-! ## The specifier of a match -/

section Quoted

variable {keyword : String} {head : Pattern CodeUnit} {L : Language CodeUnit}

/-- A pattern matches the keyword, a head, and a specifier between two quotes of one kind, which it
captures. -/
theorem groups_of_mem_run (hL : Reads head L) {c d : Cursor CodeUnit}
    (hd : d ∈ (quotedAfter keyword head).run c) :
    ∃ w ∈ L, ∃ q specifier rest, isQuote q = true ∧ specifier ∈ someOf (fun u => !isQuote u) ∧
      c.ahead = lit keyword ++ (w ++ q :: (specifier ++ q :: rest)) ∧
      d.groups = (2, specifier) :: (1, [q]) :: c.groups := by
  obtain ⟨_, hbound, hword⟩ := Pattern.mem_run_seq.mp hd
  obtain ⟨-, rfl⟩ := Pattern.mem_run_boundary.mp hbound
  obtain ⟨_, hkeyword, hrest⟩ := Pattern.mem_run_seq.mp hword
  obtain ⟨behind, hbehind, rfl⟩ := Pattern.mem_run_word.mp hkeyword
  obtain ⟨_, hhead, hquoted⟩ := Pattern.mem_run_seq.mp hrest
  obtain ⟨w, hw, quoted, hsplit, rfl⟩ := (hL _ _).mp hhead
  obtain rfl : behind = w ++ quoted := hsplit
  obtain ⟨_, hopen, hinner⟩ := Pattern.mem_run_seq.mp hquoted
  obtain ⟨_, ⟨q, rfl, hq⟩, inner, hsplit, rfl⟩ := Pattern.reads_one.mem_run_group.mp hopen
  obtain rfl : quoted = q :: inner := hsplit
  obtain ⟨_, hgroup, hclose⟩ := Pattern.mem_run_seq.mp hinner
  obtain ⟨specifier, hspecifier, closing, hsplit, rfl⟩ :=
    Pattern.reads_plus_one.mem_run_group.mp hgroup
  obtain rfl : inner = specifier ++ closing := hsplit
  obtain ⟨rest, hsplit, rfl⟩ := (Pattern.mem_run_back rfl).mp hclose
  obtain rfl : closing = q :: rest := hsplit
  exact ⟨w, hw, q, specifier, rest, hq, hspecifier, hbehind, rfl⟩

/-- It matches each of them. -/
theorem exists_mem_run (hL : Reads head L) {c : Cursor CodeUnit} {w specifier rest : JsString}
    {q : CodeUnit} (hbound : c.last.any wordUnit ≠ c.ahead.head?.any wordUnit) (hw : w ∈ L)
    (hq : isQuote q = true) (hspecifier : specifier ∈ someOf fun u => !isQuote u)
    (h : c.ahead = lit keyword ++ (w ++ q :: (specifier ++ q :: rest))) :
    ∃ d, d ∈ (quotedAfter keyword head).run c := by
  refine ⟨_, Pattern.mem_run_seq.mpr ⟨c, Pattern.mem_run_boundary.mpr ⟨hbound, rfl⟩,
    Pattern.mem_run_seq.mpr ⟨_, Pattern.mem_run_word.mpr ⟨_, h, rfl⟩,
    Pattern.mem_run_seq.mpr ⟨_, (hL _ _).mpr ⟨w, hw, _, rfl, rfl⟩,
    Pattern.mem_run_seq.mpr ⟨_, Pattern.reads_one.mem_run_group.mpr
      ⟨[q], ⟨q, rfl, hq⟩, _, rfl, rfl⟩,
    Pattern.mem_run_seq.mpr ⟨_, Pattern.reads_plus_one.mem_run_group.mpr
      ⟨specifier, hspecifier, _, rfl, rfl⟩, (Pattern.mem_run_back rfl).mpr ⟨rest, rfl, rfl⟩⟩⟩⟩⟩⟩⟩

/-- Behind a head of its language a pattern takes the specifier between the quotes. -/
theorem exists_matchAt_quotedAfter (hL : Reads head L) (hhead : ∀ w ∈ L, IsHead w)
    {before w specifier rest : JsString} {q : CodeUnit}
    (hstart : before.getLast?.any wordUnit = false)
    (hkeyword : (lit keyword).head?.any wordUnit = true) (hw : w ∈ L) (hq : isQuote q = true)
    (hspecifier : specifier ∈ someOf fun u => !isQuote u) :
    ∃ m, (quotedAfter keyword head).matchAt before.length before.getLast?
        (lit keyword ++ (w ++ q :: (specifier ++ q :: rest))) = some m ∧
      m.index = before.length ∧ m.group 2 = some specifier := by
  have hbound : before.getLast?.any wordUnit ≠
      (lit keyword ++ (w ++ q :: (specifier ++ q :: rest))).head?.any wordUnit := by
    rw [hstart, List.head?_append]
    cases h : (lit keyword).head? with
    | none => rw [h] at hkeyword; cases hkeyword
    | some u => rw [h] at hkeyword; exact fun heq => nomatch heq.trans hkeyword
  obtain ⟨d, hd⟩ := exists_mem_run hL (c := ⟨before.length, before.getLast?, _, []⟩) hbound hw hq
    hspecifier rfl
  refine Pattern.exists_matchAt (P := fun e => e.groups.lookup 2 = some specifier) hd fun e he => ?_
  -- whatever is matched begins with a head, and heads end at one quote
  obtain ⟨w', hw', q', specifier', rest', hq', hspecifier', hahead, hgroups⟩ :=
    groups_of_mem_run hL he
  obtain ⟨rfl, hinner⟩ :=
    (hhead w hw).unique (hhead w' hw') hq hq' (List.append_cancel_left hahead)
  have hquote : (fun u => !isQuote u) q = false := by simp [hq]
  obtain ⟨rfl, -, -⟩ := eq_of_append_cons hspecifier.2 hspecifier'.2 hquote hquote hinner
  rw [hgroups]
  rfl

end Quoted

/-! ## Legible heads -/

/-- A letter is a word of its own class. -/
theorem letter_mem (u : CodeUnit) : [u] ∈ letterOf (· == u) := ⟨u, rfl, beq_self_eq_true u⟩

/-- A legible binding is written as the patterns read bindings. -/
theorem text_mem_bindingWords {b : Binding} (h : b.Legible) :
    b.text ∈ {lit "*"} * renamedWords + bracedWords := by
  cases b with
  | names body =>
    exact .inr (Language.append_mem_mul (letter_mem openBrace)
      (Language.append_mem_mul h (letter_mem closeBrace)))
  | everythingAs beforeAs afterAs name =>
    obtain ⟨hbefore, hafter, hname⟩ := h
    exact .inl (Language.append_mem_mul rfl (Language.append_mem_mul hbefore
      (Language.append_mem_mul rfl (Language.append_mem_mul hafter hname))))

/-- No white space is white space the patterns read. -/
theorem nil_mem_spaces : [] ∈ wordsOf space := nofun

/-- An import is of the language of its pattern, -/
theorem text_mem_staticFromWords {gap beforeFrom afterFrom : JsString} {clause : ImportClause}
    (hgap : gap ∈ someOf space) (hclause : clause.Legible) (hbefore : beforeFrom ∈ wordsOf space)
    (hafter : afterFrom ∈ someOf space) :
    (Head.importFrom gap clause beforeFrom afterFrom).text ∈ staticFromWords := by
  have hend : beforeFrom ++ (lit "from" ++ afterFrom) ∈
      wordsOf space * ({lit "from"} * someOf space) :=
    Language.append_mem_mul hbefore (Language.append_mem_mul rfl hafter)
  rw [Head.text]
  refine Language.append_mem_mul hgap ?_
  -- by what is bound: the name, the names or both, each with its own groups of the pattern
  cases clause with
  | binding b =>
    show [] ++ (b.text ++ (beforeFrom ++ (lit "from" ++ afterFrom))) ∈ _
    exact Language.append_mem_mul (.inr rfl)
      (Language.append_mem_mul (.inl (text_mem_bindingWords hclause)) hend)
  | default name =>
    have hname : name ++ ([] ++ ([] ++ [])) ∈
        someOf nameUnit * (wordsOf space * (({lit ","} + 1) * wordsOf space)) :=
      Language.append_mem_mul hclause (Language.append_mem_mul nil_mem_spaces
        (Language.append_mem_mul (.inr rfl) nil_mem_spaces))
    rw [List.append_nil, List.append_nil, List.append_nil] at hname
    show name ++ ([] ++ (beforeFrom ++ (lit "from" ++ afterFrom))) ∈ _
    exact Language.append_mem_mul (.inl hname) (Language.append_mem_mul (.inr rfl) hend)
  | both name beforeComma afterComma b =>
    obtain ⟨hname, hcomma, hother, hbinding⟩ := hclause
    have hown : name ++ (beforeComma ++ (lit "," ++ afterComma)) ∈
        someOf nameUnit * (wordsOf space * (({lit ","} + 1) * wordsOf space)) :=
      Language.append_mem_mul hname (Language.append_mem_mul hcomma
        (Language.append_mem_mul (.inl rfl) hother))
    have hsplit : (ImportClause.both name beforeComma afterComma b).text =
        name ++ (beforeComma ++ (lit "," ++ afterComma)) ++ b.text := by
      simp [ImportClause.text]
    rw [hsplit, List.append_assoc]
    exact Language.append_mem_mul (.inl hown)
      (Language.append_mem_mul (.inl (text_mem_bindingWords hbinding)) hend)

/-- and an export of that of its own. -/
theorem text_mem_exportFromWords {gap beforeFrom afterFrom : JsString} {clause : ExportClause}
    (hgap : gap ∈ someOf space) (hclause : clause.Legible) (hbefore : beforeFrom ∈ someOf space)
    (hafter : afterFrom ∈ someOf space) :
    (Head.exportFrom gap clause beforeFrom afterFrom).text ∈ exportFromWords := by
  have hend : beforeFrom ++ (lit "from" ++ afterFrom) ∈
      someOf space * ({lit "from"} * someOf space) :=
    Language.append_mem_mul hbefore (Language.append_mem_mul rfl hafter)
  rw [Head.text]
  refine Language.append_mem_mul hgap (Language.append_mem_mul ?_ hend)
  cases clause with
  | everything => exact .inl ⟨lit "*", rfl, [], .inr rfl, List.append_nil _⟩
  | binding b =>
    rcases text_mem_bindingWords hclause with ⟨mark, hmark, new, hnew, htext⟩ | hbraced
    · exact .inl ⟨mark, hmark, new, .inl hnew, htext⟩
    · exact .inr hbraced

/-- The pattern of a legible head takes the specifier behind it. -/
theorem exists_matchAt_head {head : Head} (hhead : head.Legible)
    {before specifier rest : JsString} {q : CodeUnit}
    (hstart : before.getLast?.any wordUnit = false) (hq : isQuote q = true)
    (hspecifier : specifier ∈ someOf fun u => !isQuote u) :
    ∃ m, head.re.matchAt before.length before.getLast?
        (lit head.keyword ++ (head.text ++ q :: (specifier ++ q :: rest))) = some m ∧
      m.index = before.length ∧ m.group 2 = some specifier := by
  cases head with
  | importOnly gap =>
    exact exists_matchAt_quotedAfter reads_spaces1 (fun w hw => .bare (bare_of_spaces1 hw)) hstart
      (by decide) hhead hq hspecifier
  | importFrom gap clause beforeFrom afterFrom =>
    obtain ⟨hgap, hclause, hbefore, hafter⟩ := hhead
    exact exists_matchAt_quotedAfter reads_staticFromHead (fun _ => isHead_of_staticFrom) hstart
      (by decide) (text_mem_staticFromWords hgap hclause hbefore hafter) hq hspecifier
  | exportFrom gap clause beforeFrom afterFrom =>
    obtain ⟨hgap, hclause, hbefore, hafter⟩ := hhead
    exact exists_matchAt_quotedAfter reads_exportFromHead (fun _ => isHead_of_exportFrom) hstart
      (by decide) (text_mem_exportFromWords hgap hclause hbefore hafter) hq hspecifier

/-! ## Earlier matches -/

/-- A head begins with `import` or with `export`. -/
theorem keyword_eq (head : Head) : head.keyword = "import" ∨ head.keyword = "export" := by
  cases head <;> simp [Head.keyword]

/-- The letters of a keyword are word letters. -/
theorem wordUnit_of_mem_keyword {head : Head} {u : CodeUnit} (h : u ∈ lit head.keyword) :
    wordUnit u = true := by
  have himport : (lit "import").all wordUnit = true := by decide
  have hexport : (lit "export").all wordUnit = true := by decide
  rcases keyword_eq head with hword | hword <;> rw [hword] at h
  · exact List.all_eq_true.mp himport u h
  · exact List.all_eq_true.mp hexport u h

/-- A keyword is bare. -/
theorem bare_keyword (head : Head) : lit head.keyword ∈ wordsOf bareUnit :=
  fun _ hu => bareUnit_of_class (p := wordUnit) (by decide) (wordUnit_of_mem_keyword hu)

/-- Behind letters without quotes and braces the rest of a head is one. -/
theorem IsHead.of_append {v w : JsString} (hv : v ∈ wordsOf bareUnit) (h : IsHead (v ++ w)) :
    IsHead w := by
  generalize hcut : v ++ w = head at h
  cases h with
  | bare hbare =>
    subst hcut
    exact .bare fun u hu => hbare u (List.mem_append_right v hu)
  | braced hfirst hbody hlast =>
    rcases List.append_eq_append_iff.mp hcut with ⟨rest, rfl, rfl⟩ | ⟨rest, rfl, hopen⟩
    · exact .braced (fun u hu => hfirst u (List.mem_append_right v hu)) hbody hlast
    · cases rest with
      | nil =>
        obtain rfl := hopen
        exact .braced bare_nil hbody hlast
      | cons u rest =>
        obtain rfl := (List.cons.inj hopen).1
        cases hv openBrace (List.mem_append_right _ List.mem_cons_self)

section Reaching

variable {keyword : String} {pattern : Pattern CodeUnit} {L : Language CodeUnit}

/-- A match that reaches over a head from letters without quotes and braces takes the specifier of
that head. -/
theorem group_of_reaches (hL : Reads pattern L) (hhead : ∀ w ∈ L, IsHead w)
    {v w head specifier rest : JsString} {q : CodeUnit} {m : Match CodeUnit}
    (hkeyword : ∀ u ∈ lit keyword, wordUnit u = true) (hw : w ∈ wordsOf bareUnit) (hne : w ≠ [])
    (hstart : w.getLast?.any wordUnit = false) (hbare : lit keyword ∈ wordsOf bareUnit)
    (hmem : head ∈ L) (hq : isQuote q = true) (hspecifier : specifier ∈ someOf fun u => !isQuote u)
    (hm : (quotedAfter keyword pattern).matchAt v.length v.getLast?
      (w ++ (lit keyword ++ (head ++ q :: (specifier ++ q :: rest)))) = some m) :
    m.group 2 = some specifier := by
  rw [Pattern.matchAt, Option.map_eq_some_iff] at hm
  obtain ⟨d, hd, rfl⟩ := hm
  obtain ⟨own, hown, q', specifier', rest', hq', hspecifier', hahead, hgroups⟩ :=
    groups_of_mem_run hL (List.mem_of_head? hd)
  change w ++ _ = _ at hahead
  -- the letters before the head are the keyword of the match and the beginning of its own head
  obtain ⟨first, rfl, hrest⟩ : ∃ first, w = lit keyword ++ first ∧
      first ++ (lit keyword ++ (head ++ q :: (specifier ++ q :: rest))) =
        own ++ q' :: (specifier' ++ q' :: rest') := by
    rcases List.append_eq_append_iff.mp hahead with ⟨part, hpart, hrest⟩ | ⟨part, hpart, hrest⟩
    · obtain ⟨u, hu⟩ : ∃ u, w.getLast? = some u := ⟨_, List.getLast?_eq_some_getLast hne⟩
      rw [hu, Option.any_some, hkeyword u (hpart ▸ List.mem_append_left part
        (List.mem_of_getLast? hu))]
        at hstart
      cases hstart
    · exact ⟨part, hpart, hrest.symm⟩
  have hfirst : first ∈ wordsOf bareUnit := fun u hu => hw u (List.mem_append_right _ hu)
  obtain ⟨last, rfl, hlast⟩ : ∃ last, own = first ++ last ∧
      lit keyword ++ (head ++ q :: (specifier ++ q :: rest)) =
        last ++ q' :: (specifier' ++ q' :: rest') := by
    rcases List.append_eq_append_iff.mp hrest with ⟨part, hpart, hrest⟩ | ⟨part, hpart, hrest⟩
    · exact ⟨part, hpart, hrest⟩
    · cases part with
      | nil => exact ⟨[], by simpa using hpart.symm, by simpa using hrest.symm⟩
      | cons u part =>
        obtain rfl := (List.cons.inj hrest).1
        have hquote := hfirst q' (hpart ▸ List.mem_append_right _ List.mem_cons_self)
        simp [bareUnit, hq'] at hquote
  -- what is left of both heads ends at one quote
  have hleft : IsHead last := (hhead _ hown).of_append hfirst
  have hright : IsHead (lit keyword ++ head) := .prepend hbare (hhead head hmem)
  rw [← List.append_assoc] at hlast
  obtain ⟨rfl, hinner⟩ := hright.unique hleft hq hq' hlast
  have hquote : (fun u => !isQuote u) q = false := by simp [hq]
  obtain ⟨rfl, -, -⟩ := eq_of_append_cons hspecifier.2 hspecifier'.2 hquote hquote hinner
  rw [Match.group, hgroups]
  rfl

end Reaching

/-- So does a match of the pattern of a legible head. -/
theorem group_of_reaches_head {head : Head} (hhead : head.Legible) {v w specifier rest : JsString}
    {q : CodeUnit} {m : Match CodeUnit} (hw : w ∈ wordsOf bareUnit) (hne : w ≠ [])
    (hstart : w.getLast?.any wordUnit = false) (hq : isQuote q = true)
    (hspecifier : specifier ∈ someOf fun u => !isQuote u)
    (hm : head.re.matchAt v.length v.getLast?
      (w ++ (lit head.keyword ++ (head.text ++ q :: (specifier ++ q :: rest)))) = some m) :
    m.group 2 = some specifier := by
  have hkeyword : ∀ u ∈ lit head.keyword, wordUnit u = true := fun _ => wordUnit_of_mem_keyword
  have hbare := bare_keyword head
  cases head with
  | importOnly gap =>
    exact group_of_reaches reads_spaces1 (fun w hw => .bare (bare_of_spaces1 hw)) hkeyword hw hne
      hstart hbare hhead hq hspecifier hm
  | importFrom gap clause beforeFrom afterFrom =>
    obtain ⟨hgap, hclause, hbefore, hafter⟩ := hhead
    exact group_of_reaches reads_staticFromHead (fun _ => isHead_of_staticFrom) hkeyword hw hne
      hstart hbare (text_mem_staticFromWords hgap hclause hbefore hafter) hq hspecifier hm
  | exportFrom gap clause beforeFrom afterFrom =>
    obtain ⟨hgap, hclause, hbefore, hafter⟩ := hhead
    exact group_of_reaches reads_exportFromHead (fun _ => isHead_of_exportFrom) hkeyword hw hne
      hstart hbare (text_mem_exportFromWords hgap hclause hbefore hafter) hq hspecifier hm

/-! ## The call -/

/-- The call answers with a specifier, or is refused. -/
def Finds (text specifier : JsString) : Prop :=
  ∀ specifiers, extractLocalImportSpecifiers text = .ok specifiers → specifier ∈ specifiers

/-- What a pattern finds in code is in the answer. -/
theorem finds_of_match {text specifier : JsString} {re : Pattern CodeUnit} {m : Match CodeUnit}
    (hre : re ∈ [staticFromRe, exportFromRe, sideEffectRe]) (hm : m ∈ re.matchAll text)
    (hcode : isCode (codeMask text) m = true) (hgroup : m.group 2 = some specifier)
    (hlocal : isLocal specifier = true) : Finds text specifier := by
  intro specifiers hspecifiers
  obtain ⟨dynamic, -, hok⟩ := bind_eq_ok.mp hspecifiers
  obtain rfl := Except.ok.inj hok
  have hfound : specifier ∈ specifiersOf (codeMask text) text re :=
    List.mem_map.mpr ⟨m, List.mem_filter.mpr ⟨hm, hcode⟩, by rw [hgroup]; rfl⟩
  have hdeclared := List.mem_flatMap.mpr ⟨re, hre, hfound⟩
  exact List.mem_eraseDups.mpr
    (List.mem_filter.mpr ⟨List.mem_append_right dynamic hdeclared, hlocal⟩)

/-- The pattern of a head is one of the three. -/
theorem re_mem (head : Head) : head.re ∈ [staticFromRe, exportFromRe, sideEffectRe] := by
  cases head <;> simp [Head.re]

/-- Each match of its pattern that starts before a declaration and reaches over it starts in code,
with neither quotes nor braces up to the declaration. -/
def Unhidden (before : Source) (d : Declaration) (after : JsString) : Prop :=
  ∀ v w m, before.text = v ++ w → d.head.re.Reaches v w (d.text ++ after) m →
    before.marks[v.length]? = some false ∧ w ∈ wordsOf bareUnit

/-- It is enough to look at the places one after another. -/
theorem unhidden_of_lt {before : Source} {d : Declaration} {after : JsString}
    (h : ∀ n < before.text.length, ∀ m ∈ d.head.re.matchAt n (before.text.take n).getLast?
      (before.text.drop n ++ (d.text ++ after)), before.text.length < m.stop →
        before.marks[n]? = some false ∧ (before.text.drop n).all bareUnit = true) :
    Unhidden before d after := by
  rintro v w m hsplit ⟨hne, hmatched, hbeyond⟩
  obtain ⟨n, hn, rfl, rfl⟩ := Pattern.exists_cut hsplit hne
  rw [List.length_take, Nat.min_eq_left hn.le] at hmatched hbeyond ⊢
  rw [List.length_drop, Nat.add_sub_cancel' hn.le] at hbeyond
  obtain ⟨hcode, hbare⟩ := h n hn m hmatched hbeyond
  exact ⟨hcode, List.all_eq_true.mp hbare⟩

/-- `import {a} from "./x.mjs"`, with white space or without. -/
def sampleImport (gap : JsString) : Declaration where
  head := .importFrom gap (.binding (.names (lit "a"))) gap gap
  quote := doubleQuote
  spelling := lit "./x.mjs"
  specifier := lit "./x.mjs"

def spacedImport : Declaration := sampleImport [spaceUnit]

def compactImport : Declaration := sampleImport []

/-- An import with white space around its words is legible. -/
theorem legible_spacedImport : spacedImport.Legible where
  head := by
    have hgap : [spaceUnit] ∈ someOf space :=
      ⟨List.cons_ne_nil _ _, List.all_eq_true.mp (by decide)⟩
    exact ⟨hgap, List.all_eq_true.mp (by decide), hgap.2, hgap⟩
  quote := by decide
  bare := List.all_eq_true.mp (by decide)
  plain := rfl

end MetaframerKernel.ArchitectureFitness
